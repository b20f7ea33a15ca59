import Std.Data.ExtTreeMap

/-!
# Broadcast rings

A bus keeps the last events that were published, as many as its capacity, and every receiver reads
them at its own pace. A receiver that is too far behind is told once how many events it lost and
goes on with the oldest that is kept. What is published while there is no receiver is lost.

Positions count the events ever taken in: `kept` are the events at the positions up to `published`,
and a receiver is the position of the event that it reads next.
-/

namespace Informer

/-- A ring of the last events, with the positions of its receivers. -/
structure Bus (α : Type) where
  capacity : Nat
  /-- How many events were taken in. -/
  published : Nat := 0
  /-- The last of them, oldest first. -/
  kept : List α := []
  /-- The position of the next event of every receiver. -/
  receivers : Std.ExtTreeMap Nat Nat := ∅
  /-- How many receivers there ever were; their numbers are below this. -/
  joined : Nat := 0
  /-- Whether the publishing side is gone. -/
  closed : Bool := false

/-- What a receiver finds on a bus. -/
inductive Received (α : Type) where
  | event (e : α)
  /-- So many events were lost. -/
  | lagged (count : Nat)
  | empty
  | closed

namespace Bus

variable {α : Type}

/-- A bus for at least `capacity` events: the capacity of a ring is a power of two. -/
def ofCapacity (capacity : Nat) : Bus α := { capacity := (max capacity 1).nextPowerOfTwo }

/-- The position of the oldest event that is kept. -/
def oldest (b : Bus α) : Nat := b.published - b.kept.length

/-- Takes in an event, if anyone receives. -/
def publish (b : Bus α) (e : α) : Bus α :=
  if b.receivers.isEmpty then b
  else
    let kept := b.kept ++ [e]
    { b with published := b.published + 1, kept := kept.drop (kept.length - b.capacity) }

/-- Adds a receiver of what is published from now on; its number is `b.joined`. -/
def subscribe (b : Bus α) : Bus α :=
  { b with receivers := b.receivers.insert b.joined b.published, joined := b.joined + 1 }

/-- Removes a receiver. -/
def unsubscribe (b : Bus α) (receiver : Nat) : Bus α :=
  { b with receivers := b.receivers.erase receiver }

/-- Lets go of the publishing side. -/
def close (b : Bus α) : Bus α := { b with closed := true }

/-- Moves a receiver to a position. -/
def moveTo (b : Bus α) (receiver position : Nat) : Bus α :=
  { b with receivers := b.receivers.insert receiver position }

/-- Reads what a receiver finds next. -/
def recv (b : Bus α) (receiver : Nat) : Bus α × Received α :=
  match b.receivers[receiver]? with
  | none => (b, .closed)
  | some next =>
    if next < b.oldest then (b.moveTo receiver b.oldest, .lagged (b.oldest - next))
    else match b.kept[next - b.oldest]? with
      | some e => (b.moveTo receiver (next + 1), .event e)
      | none => (b, if b.closed then .closed else .empty)

/-- Reads what a receiver finds until there is nothing now, in at most `bound` readings. -/
def drainUpTo (b : Bus α) (receiver : Nat) : Nat → Bus α × List (Received α)
  | 0 => (b, [])
  | bound + 1 => match b.recv receiver with
    | (b, .event e) =>
      let (b, rest) := b.drainUpTo receiver bound
      (b, .event e :: rest)
    | (b, .lagged n) =>
      let (b, rest) := b.drainUpTo receiver bound
      (b, .lagged n :: rest)
    | (b, _) => (b, [])

/-- Reads all that a receiver finds: what is kept, and at most one loss. -/
def drain (b : Bus α) (receiver : Nat) : Bus α × List (Received α) :=
  b.drainUpTo receiver (b.kept.length + 1)

end Bus

end Informer
