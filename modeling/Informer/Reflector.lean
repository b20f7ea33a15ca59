import Informer.Entry

/-!
# The list-and-watch loop

How the loop of a kind keeps its entry in step with the remote side. It lists, replaces the store,
opens a watch from the listed version and applies what the watch delivers; when a list fails, or the
watch is refused, fails or ends, it reports that, pauses and lists again. A payload without identity
is reported and dropped, wherever it comes from.

`Entry.react` is one step: it takes what the loop was waiting for. An input that the loop is not
waiting for changes nothing.
-/

namespace Informer

/-- What the loop may be waiting for. -/
inductive Signal where
  /-- The loop runs for the first time. -/
  | started
  /-- The answer to a list call. -/
  | listed (result : Except TransportError Listing)
  /-- The answer to a watch call. -/
  | opened (result : Except TransportError Nat)
  /-- The watch yields this. -/
  | delivered (d : Delivery)
  /-- The watch is over. -/
  | closed
  /-- It is time to deliver everything again. -/
  | ticked
  /-- The pause is over. -/
  | rested
  /-- The stop signal was given. -/
  | stopped

/-- The delays of the loop. -/
structure Pace where
  /-- The pause before listing again. -/
  delay : Nat
  /-- The interval between resyncs, if there are any. -/
  resync? : Option Nat

namespace Entry

variable (e : Entry)

/-- The objects among payloads; for each of the others a report. -/
def readPayloads (kind : Kind) : List Json → List Object × List Effect
  | [] => ([], [])
  | payload :: rest =>
    let (objects, reports) := readPayloads kind rest
    match Object.ofPayload payload with
    | .ok o => (o :: objects, reports)
    | .error cause => (objects, .publish (.payloadDropped kind cause.message) :: reports)

/-- The change that a mutation stands for. -/
def changeOf : Mutation → Except ObjectError Change
  | .added p => (Object.ofPayload p).map .upsert
  | .modified p => (Object.ofPayload p).map .upsert
  | .deleted p => (Object.ofPayload p).map .remove

/-- Pauses after a failure, which is reported. -/
def pause (pace : Pace) (now : Nat) (report : RuntimeEvent) : Entry × List Effect :=
  ({ e with reflector := .pausing (now + pace.delay) },
    (e.reflector.stream?.map Effect.release).toList ++ [.publish report])

/-- Lists the kind. -/
def list : Entry × List Effect :=
  ({ e with reflector := .listing }, [.call e.kind .list])

/-- Takes in a listing and opens a watch from its version. The loop does not wait between replacing
what the store holds and setting the flag, so no other task sees the one without the other. -/
def takeListing (l : Listing) : Entry × List Effect :=
  let (objects, reports) := readPayloads e.kind l.payloads
  let (e, effects) := e.replace objects
  let news := if e.synced then [] else [Effect.publish (.cacheSynced e.kind objects.length)]
  ({ e with synced := true, reflector := .opening },
    reports ++ effects ++ news ++ [.call e.kind (.watch l.version?)])

/-- Takes in one mutation. -/
def takeMutation (m : Mutation) : Entry × List Effect :=
  match changeOf m with
  | .ok change => e.apply change
  | .error cause => (e, [.publish (.payloadDropped e.kind cause.message)])

/-- Delivers everything again and sets the next tick. -/
def takeTick (stream tick period : Nat) : Entry × List Effect :=
  let (e, effects) := e.resync
  ({ e with reflector := .following stream (some (tick + period)) },
    effects ++ [.publish (.resynced e.kind e.store.resync.length)])

/-- Ends the loop. -/
def endReflector : Entry × List Effect :=
  ({ e with reflector := .ended }, (e.reflector.stream?.map Effect.release).toList)

/-- One step of the loop. -/
def react (pace : Pace) (now : Nat) (signal : Signal) : Entry × List Effect :=
  match e.reflector, signal with
  | .ended, _ => (e, [])
  | _, .stopped => e.endReflector
  | .fresh, .started => e.list
  | .pausing _, .rested => e.list
  | .listing, .listed (.ok l) => e.takeListing l
  | .listing, .listed (.error cause) => e.pause pace now (.listFailed e.kind cause.message)
  | .opening, .opened (.ok stream) =>
    ({ e with reflector := .following stream (pace.resync?.map (now + ·)) }, [])
  | .opening, .opened (.error cause) => e.pause pace now (.watchFailed e.kind cause.message)
  | .following _ _, .delivered (.mutation m) => e.takeMutation m
  | .following _ _, .delivered (.failure cause) =>
    e.pause pace now (.watchFailed e.kind cause.message)
  | .following _ _, .closed => e.pause pace now (.watchClosed e.kind)
  | .following stream (some tick), .ticked => match pace.resync? with
    | some period => e.takeTick stream tick period
    | none => (e, [])
  | _, _ => (e, [])

end Entry

end Informer
