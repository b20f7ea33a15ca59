import Informer.Kind
import Informer.Transport.Streams

/-!
# Scripted transports

A transport that says what it was told to say. Answers to list and watch calls are queued per kind;
an answer may also be that there never is one. With nothing queued a list call fails and a watch
call opens a stream, which is then fed by hand.
-/

namespace Informer

/-- An answer to a call, or none ever. -/
inductive Answer (α : Type) where
  | reply (result : Except TransportError α)
  | silence

/-- What is queued and open for one kind. -/
structure KindScript where
  lists : List (Answer Listing) := []
  /-- Refusals or silence; a watch call that finds none opens a stream. -/
  watches : List (Answer Unit) := []
  /-- The open streams, oldest first. -/
  streams : List Nat := []
  /-- The calls since they were last asked for, newest first. -/
  calls : List Call := []

/-- Queued answers and open streams by kind. -/
structure Script where
  kinds : Std.ExtTreeMap Kind KindScript := ∅
  streams : Streams := {}

namespace Script

variable (s : Script) (kind : Kind)

/-- What is queued and open for a kind. -/
def script : KindScript := s.kinds[kind]?.getD {}

/-- Changes what is queued and open for a kind. -/
def modify (f : KindScript → KindScript) : Script :=
  { s with kinds := s.kinds.insert kind (f (s.script kind)) }

/-- Queues the answer to a list call. -/
def onList (answer : Answer Listing) : Script :=
  s.modify kind fun k ↦ { k with lists := k.lists ++ [answer] }

/-- Queues the answer to a watch call. -/
def onWatch (answer : Answer Unit) : Script :=
  s.modify kind fun k ↦ { k with watches := k.watches ++ [answer] }

/-- Answers a list call. -/
def list : Script × Answer Listing :=
  let s := s.modify kind fun k ↦ { k with calls := .list :: k.calls }
  match (s.script kind).lists with
  | answer :: rest => (s.modify kind ({ · with lists := rest }), answer)
  | [] => (s, .reply (.error (.other "script exhausted")))

/-- Opens a stream. -/
def openStream : Script × Answer Nat :=
  let number := s.streams.opened
  let s := s.modify kind fun k ↦ { k with streams := k.streams ++ [number] }
  ({ s with streams := s.streams.openWith [] }, .reply (.ok number))

/-- Answers a watch call. -/
def watch (version? : Option String) : Script × Answer Nat :=
  let s := s.modify kind fun k ↦ { k with calls := .watch version? :: k.calls }
  match (s.script kind).watches with
  | [] => s.openStream kind
  | answer :: rest =>
    let s := s.modify kind ({ · with watches := rest })
    match answer with
    | .silence => (s, .silence)
    | .reply (.error e) => (s, .reply (.error e))
    | .reply (.ok ()) => s.openStream kind

/-- Sends one delivery to the open streams of a kind and forgets those that nobody reads. -/
def send (d : Delivery) : Script :=
  let live := s.streams.live (s.script kind).streams
  { s.modify kind ({ · with streams := live }) with streams := s.streams.sendAll live d }

/-- Sends deliveries to the open streams of a kind; answers how many took the last one. -/
def feed (deliveries : List Delivery) : Script × Nat :=
  let s := deliveries.foldl (fun s d ↦ s.send kind d) s
  (s, if deliveries.isEmpty then 0 else (s.script kind).streams.length)

/-- Ends the open streams of a kind. -/
def endStreams : Script :=
  let numbers := (s.script kind).streams
  { s.modify kind ({ · with streams := [] }) with streams := s.streams.closeAll numbers }

/-- The calls for a kind since they were last asked for, oldest first. -/
def takeCalls : Script × List Call :=
  (s.modify kind ({ · with calls := [] }), (s.script kind).calls.reverse)

end Script

end Informer
