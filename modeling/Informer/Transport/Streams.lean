import Informer.Transport.Basic
import Std.Data.ExtTreeMap

/-!
# Watch streams

A stream holds what the remote side has sent and its reader has not yet taken. Either side may let
go of it: a stream whose sender is gone still yields what it holds and then ends, and a stream whose
reader is gone takes nothing more.

The law of a stream is that reading takes from the front what sending put at the back
(`read_send`), whatever happens to other streams.
-/

namespace Informer

/-- One watch stream. -/
structure Stream where
  queue : List Delivery := []
  /-- Whether the remote side may still send. -/
  sending : Bool := true
  /-- Whether the reader still holds the stream. -/
  reading : Bool := true

/-- What a reader finds in a stream. -/
inductive Reading where
  | delivery (d : Delivery)
  /-- Nothing now. -/
  | pending
  /-- Nothing any more. -/
  | ended
deriving DecidableEq

namespace Stream

/-- The stream that nobody holds. -/
def vacant : Stream := { sending := false, reading := false }

/-- Adds a delivery, unless the reader is gone. -/
def send (s : Stream) (d : Delivery) : Stream :=
  if s.reading then { s with queue := s.queue ++ [d] } else s

/-- Takes the next delivery. -/
def read (s : Stream) : Stream × Reading :=
  match s.queue with
  | d :: rest => ({ s with queue := rest }, .delivery d)
  | [] => (s, if s.sending then .pending else .ended)

/-- Whether a reader would find something other than `pending`. -/
def isReadable (s : Stream) : Bool := !s.queue.isEmpty || !s.sending

/-- What is held comes before what is sent. -/
theorem read_send {s : Stream} {d e : Delivery} {rest : List Delivery} (h : s.queue = d :: rest) :
    ((s.send e).read).2 = .delivery d := by
  unfold send
  split <;> simp [read, h]

end Stream

/-- All streams ever opened, by number. -/
structure Streams where
  /-- How many were opened; their numbers are below this. -/
  opened : Nat := 0
  byNumber : Std.ExtTreeMap Nat Stream := ∅

namespace Streams

/-- The stream with a number. -/
def get (s : Streams) (n : Nat) : Stream := s.byNumber[n]?.getD .vacant

/-- Changes one stream. -/
def modify (s : Streams) (n : Nat) (f : Stream → Stream) : Streams :=
  { s with byNumber := s.byNumber.insert n (f (s.get n)) }

/-- Opens a stream that holds some deliveries already; its number is `s.opened`. -/
def openWith (s : Streams) (queue : List Delivery) : Streams where
  opened := s.opened + 1
  byNumber := s.byNumber.insert s.opened { queue := queue }

/-- Sends one delivery to several streams. -/
def sendAll (s : Streams) (numbers : List Nat) (d : Delivery) : Streams :=
  numbers.foldl (fun s n ↦ s.modify n (·.send d)) s

/-- Lets go of the sending side of several streams. -/
def closeAll (s : Streams) (numbers : List Nat) : Streams :=
  numbers.foldl (fun s n ↦ s.modify n ({ · with sending := false })) s

/-- Takes the next delivery of a stream. -/
def read (s : Streams) (n : Nat) : Streams × Reading :=
  (s.modify n (·.read.1), (s.get n).read.2)

/-- Lets go of the reading side of a stream; what it holds is lost. -/
def drop (s : Streams) (n : Nat) : Streams :=
  s.modify n ({ · with queue := [], reading := false })

/-- Those of some streams whose reader is still there. -/
def live (s : Streams) (numbers : List Nat) : List Nat := numbers.filter fun n ↦ (s.get n).reading

@[simp] theorem get_modify_self (s : Streams) (n : Nat) (f : Stream → Stream) :
    (s.modify n f).get n = f (s.get n) := by
  simp [get, modify]

theorem get_modify_of_ne {n m : Nat} (h : m ≠ n) (s : Streams) (f : Stream → Stream) :
    (s.modify n f).get m = s.get m := by
  have : compare n m ≠ .eq := by simpa using h.symm
  simp [get, modify, Std.ExtTreeMap.getElem?_insert, this]

end Streams

end Informer
