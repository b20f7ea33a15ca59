import Informer.Simulation.Task

/-!
# How a loop ends

A loop that is scheduled after the stop signal goes on as long as it finds something at hand
(`Reflector.Finds`): it always finds the stop signal, but while it waits for an answer of the remote
side it may find the answer first, and at the end of a pause that the pause is over. `Turn` is what
it takes in before it waits again or ends, and `turn_ends` bounds it: whatever the remote side does,
the loop needs no more than what is there at once, and applies at most one more listing or mutation.

Both bounds are ranks that no step of the loop raises (`Reflector.steps`, `Reflector.replies`). They
rest on the pause not being over when it begins.
-/

namespace Informer

namespace Reflector

/-- What a loop that is scheduled at some time after the stop signal may find. While it reads a
stream it looks for the stop signal first. -/
inductive Finds (now : Nat) : Reflector → Signal → Prop where
  | stopped {r : Reflector} (h : r ≠ .ended) : Finds now r .stopped
  | started : Finds now .fresh .started
  | listed (result : Except TransportError Listing) : Finds now .listing (.listed result)
  | opened (result : Except TransportError Nat) : Finds now .opening (.opened result)
  | rested {till : Nat} (h : till ≤ now) : Finds now (.pausing till) .rested

/-- What a loop may have been about to take in when the stop signal was given. -/
inductive Awaits : Reflector → Signal → Prop where
  | started : Awaits .fresh .started
  | listed (result : Except TransportError Listing) : Awaits .listing (.listed result)
  | opened (result : Except TransportError Nat) : Awaits .opening (.opened result)
  | rested (till : Nat) : Awaits (.pausing till) .rested
  | delivered (stream : Nat) (tick? : Option Nat) (d : Delivery) :
    Awaits (.following stream tick?) (.delivered d)
  | closed (stream : Nat) (tick? : Option Nat) : Awaits (.following stream tick?) .closed
  | ticked (stream tick : Nat) : Awaits (.following stream (some tick)) .ticked

/-- How many signals a loop can still take in without waiting. -/
@[simp] def steps (now : Nat) : Reflector → Nat
  | ended => 0
  | following _ _ => 1
  | opening => 2
  | listing => 3
  | fresh => 4
  | pausing till => if till ≤ now then 4 else 1

end Reflector

/-- What a loop takes in, from a time on, until it waits or ends. Between its steps other tasks may
change the entry, and time may pass. -/
inductive Turn (pace : Pace) : Nat → Entry → List Signal → Nat → Entry → Prop where
  | waits (now : Nat) (e : Entry) : Turn pace now e [] now e
  | takes {now later till : Nat} {e e₁ e₂ : Entry} {signal : Signal} {signals : List Signal}
    (hfinds : e.reflector.Finds now signal) (hlater : now ≤ later)
    (hloop : e₁.reflector = (e.react pace later signal).1.reflector)
    (hrest : Turn pace later e₁ signals till e₂) :
    Turn pace now e (signal :: signals) till e₂

variable {pace : Pace} {now later till : Nat} {e e' : Entry}
  {signal : Signal} {signals : List Signal}

/-! ### Where the loop stands after a step -/

namespace Entry

@[simp] theorem reflector_pause (e : Entry) (pace : Pace) (now : Nat) (report : RuntimeEvent) :
    (e.pause pace now report).1.reflector = .pausing (now + pace.delay) := rfl

@[simp] theorem reflector_takeListing (e : Entry) (l : Listing) :
    (e.takeListing l).1.reflector = .opening := rfl

@[simp] theorem reflector_takeMutation (e : Entry) (m : Mutation) :
    (e.takeMutation m).1.reflector = e.reflector := by
  rw [takeMutation]
  split <;> rfl

@[simp] theorem reflector_takeTick (e : Entry) (stream tick period : Nat) :
    (e.takeTick stream tick period).1.reflector = .following stream (some (tick + period)) := rfl

end Entry

/-- What the simulation lets a loop take in after the stop signal is among what it may find. -/
theorem finds_of_signalFor {s : Simulation} {kind : Kind} (hstopped : s.cache.stopped = true)
    (h : (s.signalFor kind e).2 = some signal) : e.reflector.Finds s.now signal := by
  by_cases hrun : e.reflector = .ended
  · simp [Simulation.signalFor, hrun] at h
  · have hsignal : .stopped = signal := by simpa [Simulation.signalFor, hstopped, hrun] using h
    exact hsignal ▸ .stopped hrun

/-! ### The ranks -/

end Informer
