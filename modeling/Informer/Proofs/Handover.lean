import Mathlib.Data.List.Basic
import Informer.Fanout

/-!
# Two threads on one channel

A notification is counted before it is queued, and counted down after it was taken: otherwise the
worker could take it, and lower the count, before the sender had raised it. The two threads come to
their moves in any order. The rule is that the count is ahead of the queue by what one of them has
in its hands (`Balanced`), so it is never lowered from zero, and is exact when both rest. Where
nothing comes in between, the moves are a `Channel.push` and a `Channel.take`.
-/

namespace Informer

/-- How far the thread that sends is with a notification. -/
inductive Sender where
  | rests
  /-- The notification was counted, which brought the count to `count`, and is not queued yet. -/
  | counted (n : Notification) (count : Nat)
  /-- The notification is queued, and whether that is reported is not decided. -/
  | queued (count : Nat)
  /-- The queue was closed, and the notification is still counted. -/
  | refused

/-- How many notifications are counted that the sender has not queued. -/
def Sender.held : Sender → Nat
  | counted _ _ | refused => 1
  | rests | queued _ => 0

/-- A channel, and how far the two threads are that use it. -/
structure Handover where
  channel : Channel
  sender : Sender := .rests
  /-- The worker has taken a notification that is still counted. -/
  lowering : Bool := false
  /-- The counts that were reported. -/
  reports : List Nat := []

/-- What one of the two threads does at once. -/
inductive Handover.Move where
  /-- The sender counts the next notification. -/
  | count (n : Notification)
  /-- The sender queues what it counted, unless the worker has ended. -/
  | send
  /-- The sender reports the count, or takes it back. -/
  | settle
  /-- The worker takes a notification out of the queue. -/
  | receive
  /-- The worker counts down what it took. -/
  | lower
  /-- The handling ends. -/
  | rest
  /-- The worker ends. -/
  | finish

namespace Handover

/-- One move. -/
def step (backlog? : Option Nat) (h : Handover) : Move → Handover
  | .count n => match h.sender with
    | .rests => { h with
        channel := { h.channel with pending := h.channel.pending + 1 }
        sender := .counted n (h.channel.pending + 1) }
    | _ => h
  | .send => match h.sender with
    | .counted n count =>
      if h.channel.worker.isEnded then { h with sender := .refused }
      else { h with
        channel := { h.channel with queue := h.channel.queue ++ [n] }
        sender := .queued count }
    | _ => h
  | .settle => match h.sender with
    | .queued count =>
      { h with
        sender := .rests
        reports := h.reports ++ if backlog? = some count then [count] else [] }
    | .refused => { h with
        channel := { h.channel with pending := h.channel.pending - 1 }
        sender := .rests }
    | _ => h
  | .receive => match h.channel.worker, h.channel.queue with
    | .idle, n :: rest => { h with
        channel := { h.channel with queue := rest, worker := .busy n }
        lowering := true }
    | _, _ => h
  | .lower =>
    if h.lowering then { h with
      channel := { h.channel with pending := h.channel.pending - 1 }
      lowering := false }
    else h
  -- the count is lowered before anything else is done with what was taken
  | .rest => if h.lowering then h else { h with channel := h.channel.rest }
  | .finish => if h.lowering then h else { h with channel := h.channel.finish }

/-- Some moves, in the order in which the threads come to them. -/
def stepAll (backlog? : Option Nat) (h : Handover) (moves : List Move) : Handover :=
  moves.foldl (step backlog?) h

/-- The count is ahead of the queue by what the two threads have in their hands. -/
structure Balanced (h : Handover) : Prop where
  pending_eq : h.channel.pending = h.channel.queue.length + h.sender.held + h.lowering.toNat
  /-- The worker takes nothing else before it has counted down what it took. -/
  idle_eq : h.lowering = true → h.channel.worker.isIdle = false

theorem Balanced.step {h : Handover} (hb : Balanced h) (backlog? : Option Nat) (move : Move) :
    Balanced (step backlog? h move) := by
  obtain ⟨⟨id, name, queue, pending, worker⟩, sender, lowering, reports⟩ := h
  obtain ⟨hpending, hidle⟩ := hb
  simp only at hpending hidle
  cases move with
  | count n =>
    cases sender with
    | rests =>
      refine ⟨?_, hidle⟩
      simp only [Handover.step, Sender.held, hpending]
      omega
    | _ => exact ⟨hpending, hidle⟩
  | send =>
    cases sender with
    | counted n count =>
      simp only [Handover.step]
      split
      · exact ⟨hpending, hidle⟩
      · refine ⟨?_, hidle⟩
        simp only [Sender.held, hpending, List.length_append, List.length_singleton]
    | _ => exact ⟨hpending, hidle⟩
  | settle =>
    cases sender with
    | refused =>
      refine ⟨?_, hidle⟩
      simp only [Handover.step, Sender.held, hpending]
      omega
    | _ => exact ⟨hpending, hidle⟩
  | receive =>
    rcases worker with - | m | - <;> rcases queue with - | ⟨n, rest⟩
    case idle.cons =>
      -- the worker is idle, so it has counted down what it took before
      obtain rfl : lowering = false := by simpa [Worker.isIdle] using hidle
      refine ⟨?_, fun _ ↦ rfl⟩
      simp only [Handover.step, hpending, List.length_cons, Bool.toNat_true, Bool.toNat_false]
      omega
    all_goals exact ⟨hpending, hidle⟩
  | lower =>
    cases lowering with
    | true =>
      refine ⟨?_, fun hf ↦ by cases hf⟩
      simp only [Handover.step, if_true, hpending, Bool.toNat_true, Bool.toNat_false]
      rfl
    | false => exact ⟨hpending, hidle⟩
  | rest =>
    cases lowering with
    | true => exact ⟨hpending, hidle⟩
    | false =>
      refine ⟨?_, fun hf ↦ by cases hf⟩
      cases worker <;> exact hpending
  | finish =>
    cases lowering with
    | true => exact ⟨hpending, hidle⟩
    | false => exact ⟨hpending, fun hf ↦ by cases hf⟩

theorem Balanced.stepAll {h : Handover} (hb : Balanced h) (backlog? : Option Nat)
    (moves : List Move) : Balanced (stepAll backlog? h moves) := by
  induction moves generalizing h with
  | nil => exact hb
  | cons move moves ih => exact ih (hb.step backlog? move)

theorem balanced_blank (id : Nat) (name : String) : Balanced { channel := { id, name } } :=
  ⟨rfl, fun hf ↦ by cases hf⟩

/-- The moves of sending, with nothing in between, are a `Channel.push`. -/
theorem stepAll_push (backlog? : Option Nat) (h : Handover) (n : Notification)
    (hrests : h.sender = .rests) :
    stepAll backlog? h [.count n, .send, .settle] =
      { h with
        channel := h.channel.push n
        reports := h.reports ++
          if h.channel.worker.isEnded = false ∧ backlog? = some (h.channel.pending + 1) then
            [h.channel.pending + 1] else [] } := by
  obtain ⟨⟨id, name, queue, pending, worker⟩, sender, lowering, reports⟩ := h
  obtain rfl : sender = .rests := hrests
  cases worker <;> simp [stepAll, step, Channel.push, Worker.isEnded]

/-- The moves of taking, with nothing in between, are a `Channel.take`. -/
theorem stepAll_take (backlog? : Option Nat) (h : Handover) (hlower : h.lowering = false) :
    stepAll backlog? h [.receive, .lower] = { h with channel := h.channel.take } := by
  obtain ⟨⟨id, name, queue, pending, worker⟩, sender, lowering, reports⟩ := h
  obtain rfl : lowering = false := hlower
  cases worker <;> cases queue <;> simp [stepAll, step, Channel.take]

end Handover

end Informer
