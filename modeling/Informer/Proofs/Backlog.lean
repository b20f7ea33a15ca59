import Informer.Proofs.FanoutRun
import Informer.Proofs.Handover

/-!
# The count of what waits

A channel counts its waiting notifications beside its queue, and a backlog is reported by an
equality: when the count comes to the threshold. So a count that drifts is never noticed, and
neither is a report that is made twice or not at all. The rule is that both are read off the queue
(`backlog_accounted`):

* `Tidy`: whatever happens to a channel keeps its count equal to the length of its queue, and leaves
  a channel alone whose worker has ended;
* `shifts`: the length of a queue changes by one at a time, and the reports are those of the changes
  that bring it up to the threshold.

Here a notification is counted and queued at once; `Handover` is about the moves that this is made
of.
-/

namespace Informer

/-! ### Changes of the length of a queue -/

/-- A change of the number of notifications that wait for a callback. -/
structure Shift where
  id : Nat
  name : String
  before : Nat
  after : Nat
deriving DecidableEq

namespace Shift

/-- The change brings the number up to a threshold. -/
def Crosses (threshold : Nat) (x : Shift) : Prop :=
  x.before + 1 = threshold ∧ x.after = threshold

instance (threshold : Nat) (x : Shift) : Decidable (x.Crosses threshold) :=
  inferInstanceAs (Decidable (_ ∧ _))

/-- The report of a change, if there is a threshold and it is brought up to it. -/
def report? (kind : Kind) (backlog? : Option Nat) (x : Shift) : Option RuntimeEvent :=
  backlog?.bind fun threshold ↦
    if x.Crosses threshold then some (.callbackBacklog kind x.name threshold) else none

end Shift

/-- The changes lead from one number to another, each by one. -/
inductive Course : Nat → List Shift → Nat → Prop where
  | done (n : Nat) : Course n [] n
  | rise {n last : Nat} {x : Shift} {rest : List Shift} (before : x.before = n)
      (after : x.after = n + 1) (h : Course (n + 1) rest last) : Course n (x :: rest) last
  | fall {n last : Nat} {x : Shift} {rest : List Shift} (before : x.before = n + 1)
      (after : x.after = n) (h : Course n rest last) : Course (n + 1) (x :: rest) last

namespace Course

variable {first middle last : Nat} {xs ys : List Shift}

theorem append (h : Course first xs middle) (h' : Course middle ys last) :
    Course first (xs ++ ys) last := by
  induction h with
  | done n => exact h'
  | rise hb ha _ ih => exact .rise hb ha (ih h')
  | fall hb ha _ ih => exact .fall hb ha (ih h')

theorem split (h : Course first (xs ++ ys) last) :
    ∃ middle, Course first xs middle ∧ Course middle ys last := by
  induction xs generalizing first with
  | nil => exact ⟨first, .done first, h⟩
  | cons x xs ih =>
    cases h with
    | rise hb ha h =>
      obtain ⟨middle, hx, hy⟩ := ih h
      exact ⟨middle, .rise hb ha hx, hy⟩
    | fall hb ha h =>
      obtain ⟨middle, hx, hy⟩ := ih h
      exact ⟨middle, .fall hb ha hx, hy⟩

/-- What the first change leads from, and the first number after it. -/
theorem head {x : Shift} (h : Course first (x :: xs) last) :
    x.before = first ∧ Course x.after xs last := by
  cases h with
  | rise hb ha h => exact ⟨hb, ha ▸ h⟩
  | fall hb ha h => exact ⟨hb, ha ▸ h⟩

/-- Some change leads to the last number, unless there is none. -/
theorem exists_after_eq (h : Course first xs last) (hne : first ≠ last) :
    ∃ x ∈ xs, x.after = last := by
  induction h with
  | done n => exact absurd rfl hne
  | @rise n last x rest hb ha h ih =>
    by_cases hn : n + 1 = last
    · exact ⟨x, List.mem_cons_self, ha.trans hn⟩
    · obtain ⟨y, hy, hlast⟩ := ih hn
      exact ⟨y, List.mem_cons_of_mem x hy, hlast⟩
  | @fall n last x rest hb ha h ih =>
    by_cases hn : n = last
    · exact ⟨x, List.mem_cons_self, ha.trans hn⟩
    · obtain ⟨y, hy, hlast⟩ := ih hn
      exact ⟨y, List.mem_cons_of_mem x hy, hlast⟩

/-- Between two changes that cross a threshold there is one to a smaller number. -/
theorem exists_below {threshold : Nat} {x y : Shift} {zs : List Shift}
    (h : Course first (xs ++ x :: ys ++ y :: zs) last) (hx : x.Crosses threshold)
    (hy : y.Crosses threshold) : ∃ z ∈ ys, z.after < threshold := by
  obtain ⟨_, h, hlast⟩ := h.split
  obtain ⟨_, -, hmid⟩ := h.split
  have hys := hmid.head.2
  rw [← hlast.head.1, hx.2] at hys
  have hlt : y.before < threshold := by
    rw [← hy.1]
    exact Nat.lt_succ_self _
  obtain ⟨z, hz, hafter⟩ := hys.exists_after_eq (Nat.ne_of_gt hlt)
  exact ⟨z, hz, hafter ▸ hlt⟩

end Course

namespace Fanout

/-! ### The count of a channel -/

/-- What happens to channels: each stays the channel of its callback, a right count stays right, and
the channel of a worker that has ended stays as it is. -/
structure Tidy (g : Channel → Channel) : Prop where
  id_eq : ∀ c, (g c).id = c.id
  counted : ∀ c, c.pending = c.queue.length → (g c).pending = (g c).queue.length
  of_ended : ∀ c, c.worker = .ended → g c = c

theorem Tidy.ite {g : Channel → Channel} (h : Tidy g) (id : Nat) :
    Tidy fun c ↦ if c.id = id then g c else c where
  id_eq c := by
    split
    · exact h.id_eq c
    · rfl
  counted c hc := by
    split
    · exact h.counted c hc
    · exact hc
  of_ended c hc := by
    split
    · exact h.of_ended c hc
    · rfl

theorem tidy_id : Tidy fun c ↦ c := ⟨fun _ ↦ rfl, fun _ h ↦ h, fun _ _ ↦ rfl⟩

theorem tidy_push (n : Notification) : Tidy (·.push n) where
  id_eq c := push_id c n
  counted c hc := by
    unfold Channel.push
    split
    · exact hc
    · simp [hc]
  of_ended c hc := if_pos (by rw [hc]; rfl)

theorem tidy_take : Tidy Channel.take where
  id_eq := take_id
  counted c hc := by
    unfold Channel.take
    split
    · next hq => simp [hc, hq]
    · exact hc
  of_ended c hc := by simp [Channel.take, hc]

theorem tidy_rest : Tidy Channel.rest where
  id_eq := rest_id
  counted c hc := by
    unfold Channel.rest
    split
    · exact hc
    · exact hc
  of_ended c hc := by simp [Channel.rest, hc]

theorem tidy_finish : Tidy Channel.finish where
  id_eq := finish_id
  counted _ hc := hc
  of_ended c hc := by rw [Channel.finish, ← hc]

theorem foldl_push_counted (replay : List Notification) (c : Channel)
    (h : c.pending = c.queue.length) :
    (replay.foldl (·.push) c).pending = (replay.foldl (·.push) c).queue.length := by
  induction replay generalizing c with
  | nil => exact h
  | cons n rest ih => exact ih (c.push n) ((tidy_push n).counted c h)

/-- What an action does to the channels: it adds the one of the callback that it registers, or it
does something tidy to all of them. -/
theorem channels_act_cases (s : Session Fanout) (a : Action) :
    (∃ name replay, a = .register name replay ∧ (act s a).state.channels =
      s.state.channels ++ [replay.foldl (·.push) { id := s.nextCallback, name }]) ∨
    ∃ g, Tidy g ∧ (act s a).state.channels = s.state.channels.map g ∧
      (act s a).nextCallback = s.nextCallback := by
  cases a with
  | register name replay => exact .inl ⟨name, replay, rfl, rfl⟩
  | dispatch n => exact .inr ⟨_, tidy_push n, rfl, rfl⟩
  | advance id =>
    rcases advance_cases s.state s.stopped id with
      ⟨-, n, -, -, -, -, -, h⟩ | ⟨-, h, -⟩ | ⟨step, h, -⟩
    · exact .inr ⟨_, tidy_take.ite id, by simp only [act, h, modify], by simp only [act, h]⟩
    · exact .inr ⟨_, tidy_finish.ite id, by simp only [act, h, modify], by simp only [act, h]⟩
    · refine .inr ⟨_, tidy_id, ?_, ?_⟩ <;> cases step <;> simp [act, h]
  | complete id outcome =>
    rcases complete_cases s.state id outcome with ⟨-, -, h, -⟩ | ⟨-, h⟩
    · exact .inr ⟨_, tidy_rest.ite id, by simp only [act, Session.record, h, modify], rfl⟩
    · exact .inr ⟨_, tidy_id, by simp [act, Session.record, h], rfl⟩
  | stop => exact .inr ⟨_, tidy_id, by simp [act], rfl⟩

/-- The channels of a session are in order. -/
structure Tally (s : Session Fanout) : Prop where
  counted : ∀ c ∈ s.state.channels, c.pending = c.queue.length
  /-- Every callback has a channel of its own. -/
  nodup : (s.state.channels.map (·.id)).Nodup
  below : ∀ c ∈ s.state.channels, c.id < s.nextCallback

theorem tally_blank (kind : Kind) (backlog? : Option Nat) : Tally (blank kind backlog?) where
  counted _ h := by cases h
  nodup := List.nodup_nil
  below _ h := by cases h

theorem Tally.act {s : Session Fanout} (h : Tally s) (a : Action) : Tally (act s a) := by
  rcases channels_act_cases s a with ⟨name, replay, rfl, hs⟩ | ⟨g, hg, hs, hnext⟩
  · have hid := (foldl_push replay { id := s.nextCallback, name } rfl).1
    refine ⟨?_, ?_, ?_⟩
    · rw [hs]
      rintro c hc
      rcases List.mem_append.1 hc with hc | hc
      · exact h.counted c hc
      · rw [List.mem_singleton.1 hc]
        exact foldl_push_counted replay _ rfl
    · rw [hs, List.map_append, List.map_singleton, hid]
      refine List.nodup_append.2 ⟨h.nodup, List.pairwise_singleton _ _, ?_⟩
      rw [List.forall_mem_map]
      intro c hc id hid
      rw [List.mem_singleton.1 hid]
      exact Nat.ne_of_lt (h.below c hc)
    · rw [hs]
      rintro c hc
      rcases List.mem_append.1 hc with hc | hc
      · exact Nat.lt_succ_of_lt (h.below c hc)
      · rw [List.mem_singleton.1 hc, hid]
        exact Nat.lt_succ_self _
  · refine ⟨?_, ?_, ?_⟩
    · rw [hs, List.forall_mem_map]
      exact fun c hc ↦ hg.counted c (h.counted c hc)
    · rw [hs, List.map_map]
      rw [show (fun c : Channel ↦ c.id) ∘ g = fun c ↦ c.id from funext hg.id_eq]
      exact h.nodup
    · rw [hs, hnext, List.forall_mem_map]
      exact fun c hc ↦ (hg.id_eq c).symm ▸ h.below c hc

theorem Tally.actAll {s : Session Fanout} (h : Tally s) (actions : List Action) :
    Tally (actAll s actions) := by
  induction actions generalizing s with
  | nil => exact h
  | cons a actions ih => exact ih (h.act a)

/-- The channel of a worker that has ended stays as it is. -/
theorem mem_act_of_ended {s : Session Fanout} {c : Channel} (hc : c ∈ s.state.channels)
    (h : c.worker = .ended) (a : Action) : c ∈ (act s a).state.channels := by
  rcases channels_act_cases s a with ⟨name, replay, -, hs⟩ | ⟨g, hg, hs, -⟩
  · rw [hs]
    exact List.mem_append_left _ hc
  · rw [hs]
    exact List.mem_map.2 ⟨c, hc, hg.of_ended c h⟩

theorem mem_actAll_of_ended {s : Session Fanout} {c : Channel} (hc : c ∈ s.state.channels)
    (h : c.worker = .ended) (actions : List Action) : c ∈ (actAll s actions).state.channels := by
  induction actions generalizing s with
  | nil => exact hc
  | cons a actions ih => exact ih (mem_act_of_ended hc h a)

/-- The channels with the number of a callback are the channel of the callback. -/
theorem filter_channels {f : Fanout} (h : (f.channels.map (·.id)).Nodup) (id : Nat) :
    f.channels.filter (·.id = id) = (f.channel? id).toList := by
  unfold channel?
  generalize f.channels = channels at h
  induction channels with
  | nil => rfl
  | cons c rest ih =>
    have hc : c.id ∉ rest.map (·.id) := (List.nodup_cons.1 h).1
    have hrest : (rest.map (·.id)).Nodup := (List.nodup_cons.1 h).2
    by_cases hid : c.id = id
    · have hnone : rest.filter (·.id = id) = [] := by
        refine List.filter_eq_nil_iff.2 fun d hd heq ↦ hc ?_
        rw [hid, ← of_decide_eq_true heq]
        exact List.mem_map_of_mem hd
      rw [List.filter_cons_of_pos (by simpa using hid), hnone,
        List.find?_cons_of_pos (by simpa using hid), Option.toList_some]
    · rw [List.filter_cons_of_neg (by simpa using hid),
        List.find?_cons_of_neg (by simpa using hid), ih hrest]

/-- A channel is the one that its number leads to. -/
theorem channel?_of_mem {f : Fanout} (h : (f.channels.map (·.id)).Nodup) {c : Channel}
    (hc : c ∈ f.channels) : f.channel? c.id = some c := by
  have hmem : c ∈ f.channels.filter (·.id = c.id) := List.mem_filter.2 ⟨hc, by simp⟩
  rw [filter_channels h] at hmem
  exact Option.mem_toList.1 hmem

/-! ### What an action does to the lengths of the queues -/

/-- The change that one more notification brings about, if the worker has not ended. -/
def rise? (c : Channel) : Option Shift :=
  if c.worker.isEnded then none else some ⟨c.id, c.name, c.queue.length, c.queue.length + 1⟩

/-- The changes that some notifications bring about, one after another. -/
def rises (c : Channel) : List Notification → List Shift
  | [] => []
  | n :: rest => (rise? c).toList ++ rises (c.push n) rest

/-- The change that a worker brings about when it takes a notification. -/
def fall (s : Session Fanout) (p : Nat × Notification) : Shift :=
  ⟨p.1, s.state.nameOf p.1, (s.state.queueOf p.1).length, (s.state.queueOf p.1).length - 1⟩

/-- The changes that an action brings about, of all queues. -/
def shifts (s : Session Fanout) : Action → List Shift
  | .register name replay => rises { id := s.nextCallback, name } replay
  | .dispatch _ => s.state.channels.filterMap rise?
  | .advance id => (given s (.advance id)).map (fall s)
  | _ => []

/-- The changes that some actions bring about. -/
def shiftsAll (s : Session Fanout) : List Action → List Shift
  | [] => []
  | a :: actions => shifts s a ++ shiftsAll (act s a) actions

theorem course_rise? (c : Channel) (n : Notification) :
    Course c.queue.length (rise? c).toList (c.push n).queue.length := by
  unfold rise? Channel.push
  split
  · exact .done _
  · rw [List.length_append, List.length_singleton]
    exact .rise rfl rfl (.done _)

theorem course_rises (c : Channel) (replay : List Notification) :
    Course c.queue.length (rises c replay) (replay.foldl (·.push) c).queue.length := by
  induction replay generalizing c with
  | nil => exact .done _
  | cons n rest ih => exact (course_rise? c n).append (ih (c.push n))

theorem id_of_mem_rise? {c : Channel} {x : Shift} (h : x ∈ rise? c) :
    x.id = c.id ∧ x.name = c.name := by
  unfold rise? at h
  split at h
  · cases h
  · cases h
    exact ⟨rfl, rfl⟩

theorem id_of_mem_rises {c : Channel} {replay : List Notification} {x : Shift}
    (h : x ∈ rises c replay) : x.id = c.id ∧ x.name = c.name := by
  induction replay generalizing c with
  | nil => cases h
  | cons n rest ih =>
    rcases List.mem_append.1 h with h | h
    · exact id_of_mem_rise? (Option.mem_toList.1 h)
    · simpa using ih h

/-- The changes of one queue among those of all. -/
theorem filter_filterMap_rise? {f : Fanout} (h : (f.channels.map (·.id)).Nodup) (id : Nat) :
    (f.channels.filterMap rise?).filter (·.id = id) = ((f.channel? id).bind rise?).toList := by
  have hcomm : (f.channels.filterMap rise?).filter (·.id = id) =
      (f.channels.filter (·.id = id)).filterMap rise? := by
    rw [List.filter_filterMap, List.filterMap_filter]
    refine List.filterMap_congr fun c _ ↦ ?_
    rcases hc : rise? c with - | x
    · simp
    · simp [Option.filter, (id_of_mem_rise? hc).1]
  rw [hcomm, filter_channels h]
  rcases f.channel? id with - | c
  · rfl
  · rcases hc : rise? c with - | x <;> simp [hc]

/-- **What an action does to the length of a queue** is in its changes, one by one. -/
theorem course_shifts {s : Session Fanout} (h : Tally s) (hf : Fresh s) (a : Action) (id : Nat) :
    Course (s.state.queueOf id).length ((shifts s a).filter (·.id = id))
      ((act s a).state.queueOf id).length := by
  cases a with
  | register name replay =>
    simp only [queueOf, channel?_act_register, shifts]
    by_cases hid : id = s.nextCallback
    · subst hid
      have hall : (rises { id := s.nextCallback, name } replay).filter (·.id = s.nextCallback) =
          rises { id := s.nextCallback, name } replay :=
        List.filter_eq_self.2 fun x hx ↦ decide_eq_true (id_of_mem_rises hx).1
      rw [hall, (hf _ (Nat.le_refl _)).1, if_pos rfl]
      exact course_rises { id := s.nextCallback, name } replay
    · have hnone : (rises { id := s.nextCallback, name } replay).filter (·.id = id) = [] :=
        List.filter_eq_nil_iff.2 fun x hx heq ↦
          hid ((of_decide_eq_true heq).symm.trans (id_of_mem_rises hx).1)
      rw [hnone, if_neg hid, Option.or_none]
      exact .done _
  | dispatch n =>
    rw [shifts, filter_filterMap_rise? h.nodup, queueOf, queueOf,
      show (act s (.dispatch n)).state.channel? id = _ from channel?_dispatch s.state n id]
    rcases s.state.channel? id with - | c
    · exact .done _
    · exact course_rise? c n
  | advance other =>
    rcases advance_cases s.state s.stopped other with
      ⟨c, n, rest, hc, hw, hq, -, ha⟩ | ⟨-, ha, -⟩ | ⟨step, ha, hstep⟩
    · simp only [shifts, given, act, ha, List.map_cons, List.map_nil, fall]
      by_cases ho : id = other
      · subst ho
        simp only [queueOf, channel?_modify_self take_id, hc, Option.map_some, Option.getD_some,
          take_queue hw hq, hq, decide_true, List.filter_cons_of_pos, List.filter_nil,
          List.length_cons, Nat.add_sub_cancel]
        exact .fall rfl rfl (.done _)
      · simp only [queueOf, channel?_modify_of_ne take_id ho, decide_eq_true_eq, Ne.symm ho,
          not_false_eq_true, List.filter_cons_of_neg, List.filter_nil]
        exact .done _
    · -- a worker that ends leaves its queue behind
      simp only [shifts, given, act, ha, List.map_nil, List.filter_nil, queueOf,
        channel?_modify_eq_map finish_id]
      rcases s.state.channel? id with - | c
      · exact .done _
      · by_cases ho : id = other
        · simp only [ho, Option.map_some, Channel.finish, if_true]
          exact .done _
        · simp only [ho, Option.map_some, if_false]
          exact .done _
    · simp only [shifts, given, act, ha]
      cases step with
      | took n => exact absurd rfl (hstep n)
      | waits => exact .done _
      | ended => exact .done _
  | complete other outcome =>
    have hqueue : (act s (.complete other outcome)).state.queueOf id = s.state.queueOf id := by
      rcases complete_cases s.state other outcome with ⟨-, -, ha, -⟩ | ⟨-, ha⟩
      · simp only [act, Session.record, ha, queueOf, channel?_modify_eq_map rest_id]
        rcases s.state.channel? id with - | c
        · rfl
        · simp only [Option.map_some, Option.getD_some]
          split
          · exact rest_queue c
          · rfl
      · simp only [act, Session.record, ha]
    rw [hqueue]
    exact .done _
  | stop => exact .done _

/-- The changes of one queue lead from its length before some actions to the length after. -/
theorem course_shiftsAll {s : Session Fanout} (h : Tally s) (hf : Fresh s) (actions : List Action)
    (id : Nat) :
    Course (s.state.queueOf id).length ((shiftsAll s actions).filter (·.id = id))
      ((actAll s actions).state.queueOf id).length := by
  induction actions generalizing s with
  | nil => exact .done _
  | cons a actions ih =>
    rw [shiftsAll, List.filter_append]
    exact (course_shifts h hf a id).append (ih (h.act a) (hf.act a))

/-! ### The reports -/

/-- The events that report a backlog. -/
def backlogs (events : List RuntimeEvent) : List RuntimeEvent :=
  events.filter (·.topic = .callbackBacklog)

theorem backlogs_append (es fs : List RuntimeEvent) :
    backlogs (es ++ fs) = backlogs es ++ backlogs fs :=
  List.filter_append es fs

theorem backlogs_eq_self {es : List RuntimeEvent} (h : ∀ e ∈ es, e.topic = .callbackBacklog) :
    backlogs es = es :=
  List.filter_eq_self.2 fun e he ↦ decide_eq_true (h e he)

/-- A right count makes the report that the length of the queue calls for. -/
theorem events_warning (f : Fanout) {c : Channel} (h : c.pending = c.queue.length) :
    Effect.events (f.warning c) = (rise? c).toList.filterMap (·.report? f.kind f.backlog?) := by
  unfold warning rise?
  rw [h]
  split
  · rfl
  · rcases f.backlog? with - | threshold
    · rfl
    · by_cases ht : threshold = c.queue.length + 1
      · simp [ht, Shift.report?, Shift.Crosses, Effect.events, Effect.event?]
      · simp [ht, Ne.symm ht, Shift.report?, Shift.Crosses]

theorem events_warnings (f : Fanout) {c : Channel} (h : c.pending = c.queue.length)
    (replay : List Notification) :
    Effect.events (f.warnings c replay) =
      (rises c replay).filterMap (·.report? f.kind f.backlog?) := by
  induction replay generalizing c with
  | nil => rfl
  | cons n rest ih =>
    rw [warnings, Effect.events_append, events_warning f h, ih ((tidy_push n).counted c h), rises,
      List.filterMap_append]

theorem events_pushEffects (f : Fanout) (c : Channel) :
    Effect.events (f.pushEffects c) = Effect.events (f.warning c) := by
  rw [pushEffects, Effect.events_append]
  split <;> rfl

theorem events_flatMap_pushEffects (f : Fanout) {channels : List Channel}
    (h : ∀ c ∈ channels, c.pending = c.queue.length) :
    Effect.events (channels.flatMap f.pushEffects) =
      (channels.filterMap rise?).filterMap (·.report? f.kind f.backlog?) := by
  induction channels with
  | nil => rfl
  | cons c rest ih =>
    obtain ⟨hc, hrest⟩ := List.forall_mem_cons.1 h
    rw [List.flatMap_cons, Effect.events_append, events_pushEffects, events_warning f hc, ih hrest,
      ← List.filterMap_append]
    rcases hx : rise? c with - | x <;> simp [hx]

theorem backlog?_act (s : Session Fanout) (a : Action) :
    (act s a).state.backlog? = s.state.backlog? := by
  cases a with
  | advance id =>
    rcases advance_cases s.state s.stopped id with
      ⟨-, n, -, -, -, -, -, ha⟩ | ⟨-, ha, -⟩ | ⟨step, ha, -⟩
    · simp only [act, ha, modify]
    · simp only [act, ha, modify]
    · simp only [act, ha]
      cases step <;> rfl
  | complete id outcome =>
    rcases complete_cases s.state id outcome with ⟨-, -, ha, -⟩ | ⟨-, ha⟩ <;>
      simp only [act, Session.record, ha, modify]
  | _ => rfl

/-- **What an action reports** is what its changes call for. -/
theorem backlogs_act {s : Session Fanout} (h : Tally s) (a : Action) :
    ∃ new, (act s a).events = s.events ++ new ∧
      backlogs new = (shifts s a).filterMap (·.report? s.state.kind s.state.backlog?) := by
  cases a with
  | register name replay =>
    refine ⟨_, rfl, ?_⟩
    rw [backlogs_eq_self fun _ ↦ topic_of_mem_register, register, Effect.events_append,
      events_warnings s.state rfl]
    exact List.append_nil _
  | dispatch n =>
    refine ⟨_, rfl, ?_⟩
    rw [backlogs_eq_self fun _ ↦ topic_of_mem_dispatch]
    exact events_flatMap_pushEffects s.state h.counted
  | advance id =>
    rcases advance_cases s.state s.stopped id with
      ⟨c, n, rest, hc, -, hq, -, ha⟩ | ⟨-, ha, -⟩ | ⟨step, ha, hstep⟩
    · -- a queue that gets shorter crosses no threshold
      refine ⟨[], by simp [act, ha], ?_⟩
      have hnone : ∀ threshold, ¬ (fall s (id, n)).Crosses threshold := by
        rintro threshold ⟨hb, hafter⟩
        simp only [fall, queueOf, hc, hq, Option.map_some, Option.getD_some, List.length_cons,
          Nat.add_sub_cancel] at hb hafter
        omega
      have hreport : (fall s (id, n)).report? s.state.kind s.state.backlog? = none := by
        rw [Shift.report?, Option.bind_eq_none_iff]
        exact fun threshold _ ↦ if_neg (hnone threshold)
      simp [shifts, given, ha, hreport, backlogs]
    · exact ⟨[], by simp [act, ha], by simp [shifts, given, ha, backlogs]⟩
    · cases step with
      | took n => exact absurd rfl (hstep n)
      | waits => exact ⟨[], by simp [act, ha], by simp [shifts, given, ha, backlogs]⟩
      | ended => exact ⟨[], by simp [act, ha], by simp [shifts, given, ha, backlogs]⟩
  | complete id outcome =>
    refine ⟨_, rfl, ?_⟩
    rcases complete_cases s.state id outcome with ⟨n, -, -, he⟩ | ⟨-, ha⟩
    · rw [he]
      cases outcome <;> rfl
    · rw [ha]
      rfl
  | stop => exact ⟨[], (List.append_nil _).symm, rfl⟩

/-- The settings of the callbacks stay as they are. -/
theorem settings_actAll (s : Session Fanout) (actions : List Action) :
    (actAll s actions).state.kind = s.state.kind ∧
      (actAll s actions).state.backlog? = s.state.backlog? := by
  induction actions generalizing s with
  | nil => exact ⟨rfl, rfl⟩
  | cons a actions ih =>
    obtain ⟨hkind, hbacklog⟩ := ih (act s a)
    exact ⟨hkind.trans (kind_act s a), hbacklog.trans (backlog?_act s a)⟩

/-- What some actions report is what their changes call for. -/
theorem backlogs_actAll {s : Session Fanout} (h : Tally s) (actions : List Action) :
    backlogs (actAll s actions).events = backlogs s.events ++
      (shiftsAll s actions).filterMap (·.report? s.state.kind s.state.backlog?) := by
  induction actions generalizing s with
  | nil => exact (List.append_nil _).symm
  | cons a actions ih =>
    obtain ⟨new, hnew, hreports⟩ := backlogs_act h a
    rw [actAll_cons, ih (h.act a), hnew, backlogs_append, hreports, kind_act, backlog?_act,
      List.append_assoc, ← List.filterMap_append]
    rfl

/-- A change has the name of the callback whose queue it is about. -/
theorem name_of_mem_shifts {s : Session Fanout} (h : Tally s) (hf : Fresh s) {a : Action}
    {x : Shift} (hx : x ∈ shifts s a) : x.name = (act s a).state.nameOf x.id := by
  cases a with
  | register name replay =>
    obtain ⟨hid, hname⟩ := id_of_mem_rises hx
    rw [nameOf, channel?_act_register, hid, hname, (hf _ (Nat.le_refl _)).1, if_pos rfl]
    exact ((foldl_push replay { id := s.nextCallback, name } rfl).2.1).symm
  | dispatch n =>
    obtain ⟨c, hc, hx⟩ := List.mem_filterMap.1 hx
    obtain ⟨hid, hname⟩ := id_of_mem_rise? hx
    have hsome := channel?_of_mem h.nodup hc
    rw [(nameOf_act (by rw [hid, hsome]; rfl) _).2, nameOf, hid, hsome, hname]
    rfl
  | advance id =>
    obtain ⟨p, hp, rfl⟩ := List.mem_map.1 hx
    obtain ⟨-, -, c, -, hc, -⟩ := of_mem_given hp
    rw [(nameOf_act (by rw [fall, hc]; rfl) _).2]
    rfl
  | _ => cases hx

/-! ### The account of every run -/

/-- **The backlog is accounted for**, over every run of registrations with their replays,
notifications, steps of workers, ends of handlings and stop signals.

* The count of every channel is the number of notifications in its queue; a worker that takes one
  finds a count above zero, which it lowers by one; and once a worker has ended, its channel stays
  as it was left, whatever comes later.
* The changes of an action lead from the length of each queue before it to the length after it by
  one at a time, under the name of the callback, and the reports of an action are those of its
  changes that bring a queue up to the threshold, in their order and with the threshold as count.
* Of the changes of one queue over the whole run, there is between two that come up to a threshold
  one that goes below it.
* Without a threshold nothing is reported.
* When the threads that send and take come to their moves in any order, the count is the number of
  notifications in the queue and in their hands. -/
theorem backlog_accounted (kind : Kind) (backlog? : Option Nat) (actions : List Action) :
    let s := actAll (blank kind backlog?) actions
    (∀ c ∈ s.state.channels, c.pending = c.queue.length ∧
      s.state.channel? c.id = some c ∧
      (c.worker = .ended → ∀ later, c ∈ (actAll s later).state.channels)) ∧
    (∀ a, ∀ p ∈ given s a, ∃ c, s.state.channel? p.1 = some c ∧ 0 < c.pending ∧
      (act s a).state.channel? p.1 = some c.take ∧ c.take.pending + 1 = c.pending) ∧
    (∀ a, (∀ id, Course (s.state.queueOf id).length ((shifts s a).filter (·.id = id))
        ((act s a).state.queueOf id).length) ∧
      (∀ x ∈ shifts s a, x.name = (act s a).state.nameOf x.id) ∧
      ∃ new, (act s a).events = s.events ++ new ∧
        backlogs new = (shifts s a).filterMap (·.report? kind backlog?)) ∧
    backlogs s.events =
      (shiftsAll (blank kind backlog?) actions).filterMap (·.report? kind backlog?) ∧
    (∀ id xs x ys y zs threshold,
      (shiftsAll (blank kind backlog?) actions).filter (·.id = id) = xs ++ x :: ys ++ y :: zs →
      x.Crosses threshold → y.Crosses threshold → ∃ z ∈ ys, z.after < threshold) ∧
    (backlog? = none → backlogs s.events = []) ∧
    ∀ id name moves, let h := Handover.stepAll backlog? { channel := { id, name } } moves
      h.channel.pending = h.channel.queue.length + h.sender.held + h.lowering.toNat := by
  intro s
  have htally : Tally s := (tally_blank kind backlog?).actAll actions
  have hfresh : Fresh s := (fresh_blank kind backlog?).actAll actions
  have hreports := backlogs_actAll (tally_blank kind backlog?) actions
  refine ⟨fun c hc ↦ ⟨htally.counted c hc, channel?_of_mem htally.nodup hc,
    mem_actAll_of_ended hc⟩, ?_, fun a ↦ ⟨?_, ?_, ?_⟩, hreports, ?_, ?_, ?_⟩
  · intro a p hp
    obtain ⟨-, -, c, rest, hc, hw, hq, hact⟩ := of_mem_given hp
    have hpending : c.pending = rest.length + 1 := by
      rw [htally.counted c (List.mem_of_find?_eq_some hc), hq, List.length_cons]
    refine ⟨c, hc, by rw [hpending]; exact Nat.succ_pos _, ?_, ?_⟩
    · rw [hact, channel?_modify_self take_id, hc, Option.map_some]
    · simp [Channel.take, hw, hq, hpending]
  · exact course_shifts htally hfresh a
  · exact fun x hx ↦ name_of_mem_shifts htally hfresh hx
  · obtain ⟨hkind, hbacklog⟩ := settings_actAll (blank kind backlog?) actions
    have := backlogs_act htally a
    rwa [hkind, hbacklog] at this
  · intro id xs x ys y zs threshold hlog hx hy
    have hcourse := course_shiftsAll (tally_blank kind backlog?) (fresh_blank kind backlog?) actions
      id
    rw [hlog] at hcourse
    exact hcourse.exists_below hx hy
  · rintro rfl
    rw [hreports]
    exact List.filterMap_eq_nil_iff.2 fun _ _ ↦ rfl
  · exact fun id name moves ↦
      ((Handover.balanced_blank id name).stepAll backlog? moves).pending_eq

/-- A queue that is drained in between reports twice; what it holds when its worker ends stays
counted. -/
theorem backlog_accounted_of_drain :
    let o : Object :=
      ⟨.object [("metadata", .object [("name", .string "a")])], { name := "a" }, rfl⟩
    let kind : Kind := ⟨"", "v1", "Node"⟩
    let actions : List Action := [.register "slow" [.added o], .dispatch (.updated o o), .advance 1,
      .dispatch (.updated o o), .stop, .complete 1 .returned, .advance 1]
    let s := actAll (blank kind (some 2)) actions
    backlogs s.events =
        [.callbackBacklog kind "slow" 2, .callbackBacklog kind "slow" 2] ∧
      (∃ z ∈ [(⟨1, "slow", 2, 1⟩ : Shift)], z.after < 2) ∧
      ∃ c ∈ s.state.channels, c.pending = 2 ∧ c.pending = c.queue.length ∧
        ∀ later, c ∈ (actAll s later).state.channels := by
  intro o kind actions s
  obtain ⟨hchannels, -, -, -, hbetween, -, -⟩ := backlog_accounted kind (some 2) actions
  have hmem : (⟨1, "slow", [.updated o o, .updated o o], 2, .ended⟩ : Channel) ∈
      s.state.channels := List.mem_singleton.2 rfl
  obtain ⟨hcounted, -, hended⟩ := hchannels _ hmem
  exact ⟨rfl, hbetween 1 [⟨1, "slow", 0, 1⟩] ⟨1, "slow", 1, 2⟩ [⟨1, "slow", 2, 1⟩]
    ⟨1, "slow", 1, 2⟩ [] 2 rfl (by decide) (by decide), _, hmem, rfl, hcounted, hended rfl⟩

end Fanout

end Informer
