import Informer.Object
import Informer.Transport.Streams

/-!
# A versioned registry of objects

A remote store held in memory. It keeps the objects of every kind by key, gives each write the next
version and each new object the next identifier, and records the mutations of a kind with their
versions, so that a watch can resume from a listed version without a gap.

Writes go through `commit`, which advances the version, records the mutation and sends it to the
open watches in one step; a write that fails before it changes no object, no record and no version.
Besides the writes there are three ways to misbehave on demand: `inject` sends a mutation that no
write made, `breakWatches` ends the open watches with an error, and `failLists` refuses the next
list calls.
-/

namespace Informer

/-- What the registry keeps for one kind. -/
structure KindRecord where
  objects : Std.ExtTreeMap Key Json := ∅
  /-- Every mutation with its version, oldest first. -/
  history : List (Nat × Mutation) := []
  /-- The streams of the open watches, oldest first. -/
  watchers : List Nat := []
  listCalls : Nat := 0
  watchCalls : Nat := 0
  /-- How many list calls are still to be refused. -/
  failingLists : Nat := 0

/-- Objects by kind and key, with versions and watches. -/
structure Registry where
  /-- The last version given out. -/
  lastVersion : Nat := 0
  /-- The number of the last identifier drawn. -/
  lastUid : Nat := 0
  kinds : Std.ExtTreeMap Kind KindRecord := ∅
  streams : Streams := {}

namespace Registry

/-! ### Stamping payloads -/

/-- The metadata block of a payload. -/
def metadataOf (payload : Json) : Json := (payload.get? "metadata").getD .null

/-- Sets a field of the metadata block of a payload, if that block is an object. -/
def setMetadata (name : String) (v : Json) : Json → Json
  | .object members => match Json.member? "metadata" members with
    | some (.object block) =>
      .object (Json.putMember "metadata" (.object (Json.putMember name v block)) members)
    | _ => .object members
  | payload => payload

/-- Gives a payload its identifier and its version. -/
def stamp (uid : Json) (version : Nat) (payload : Json) : Json :=
  setMetadata "resourceVersion" (.string (toString version)) (setMetadata "uid" uid payload)

/-! ### Writes -/

variable (r : Registry) (kind : Kind)

/-- What is kept for a kind. -/
def record : KindRecord := r.kinds[kind]?.getD {}

/-- Changes what is kept for a kind. -/
def modify (f : KindRecord → KindRecord) : Registry :=
  { r with kinds := r.kinds.insert kind (f (r.record kind)) }

/-- Sends a delivery to the open watches of a kind and forgets those that nobody reads. -/
def broadcast (d : Delivery) : Registry :=
  let watchers := r.streams.live (r.record kind).watchers
  { r.modify kind ({ · with watchers }) with streams := r.streams.sendAll watchers d }

/-- Advances the version, records a mutation under it and sends it to the open watches. -/
def commit (m : Mutation) : Registry :=
  let version := r.lastVersion + 1
  let r := r.modify kind fun k ↦ { k with history := k.history ++ [(version, m)] }
  { r with lastVersion := version }.broadcast kind (.mutation m)

/-- How errors name an object. -/
def describe (key : Key) : String := kind.display ++ " " ++ key.display

/-- Stores a new object and answers with its stamped payload. -/
def create (payload : Json) : Registry × Except TransportError Json :=
  match Object.ofPayload payload with
  | .error e => (r, .error (.invalid e.message))
  | .ok o =>
    let r := { r with lastUid := r.lastUid + 1 }
    if (r.record kind).objects.contains o.key then
      (r, .error (.conflict (describe kind o.key ++ " already exists")))
    else
      let stored := stamp (.string ("uid-" ++ toString r.lastUid)) (r.lastVersion + 1) payload
      let r := r.modify kind fun k ↦ { k with objects := k.objects.insert o.key stored }
      (r.commit kind (.added stored), .ok stored)

/-- Replaces an object, which keeps its identifier. A version in the payload must be the stored
one. -/
def update (payload : Json) : Registry × Except TransportError Json :=
  match Object.ofPayload payload with
  | .error e => (r, .error (.invalid e.message))
  | .ok o => match (r.record kind).objects[o.key]? with
    | none => (r, .error (.notFound (describe kind o.key)))
    | some current =>
      let expected? := (metadataOf payload).get? "resourceVersion"
      if expected?.isSome && expected? ≠ (metadataOf current).get? "resourceVersion" then
        (r, .error (.conflict (describe kind o.key ++ " was modified concurrently")))
      else
        let uid := ((metadataOf current).get? "uid").getD .null
        let stored := stamp uid (r.lastVersion + 1) payload
        let r := r.modify kind fun k ↦ { k with objects := k.objects.insert o.key stored }
        (r.commit kind (.modified stored), .ok stored)

/-- Removes an object; watches receive its final state under a version of its own. -/
def delete (key : Key) : Registry × Except TransportError Unit :=
  match (r.record kind).objects[key]? with
  | none => (r, .error (.notFound (describe kind key)))
  | some current =>
    let last := setMetadata "resourceVersion" (.string (toString (r.lastVersion + 1))) current
    let r := r.modify kind fun k ↦ { k with objects := k.objects.erase key }
    (r.commit kind (.deleted last), .ok ())

/-- The stored payload under a key. -/
def get? (key : Key) : Option Json := (r.record kind).objects[key]?

/-! ### Misbehaviour on demand -/

/-- Records and sends a mutation that no write made. -/
def inject (m : Mutation) : Registry := r.commit kind m

/-- Ends the open watches of a kind with an error. -/
def breakWatches (e : TransportError) : Registry :=
  let r := r.broadcast kind (.failure e)
  let watchers := (r.record kind).watchers
  { r.modify kind ({ · with watchers := [] }) with streams := r.streams.closeAll watchers }

/-- Refuses the next `n` list calls for a kind. -/
def failLists (n : Nat) : Registry := r.modify kind ({ · with failingLists := n })

/-! ### Listing and watching -/

/-- Lists a kind, by ascending key, with the last version given out. -/
def list : Registry × Except TransportError Listing :=
  let r := r.modify kind fun k ↦ { k with listCalls := k.listCalls + 1 }
  let k := r.record kind
  if k.failingLists > 0 then
    (r.modify kind ({ · with failingLists := k.failingLists - 1 }),
      .error (.unavailable ("list " ++ kind.display ++ " refused")))
  else
    (r, .ok ⟨k.objects.toList.map (·.2), some (toString r.lastVersion)⟩)

/-- The version that a text of decimal digits stands for, with a plus sign or without, if it fits 64
bits. -/
def parseVersion? (text : String) : Option Nat :=
  let digits := match text.toList with
    | '+' :: rest => rest
    | cs => cs
  let value := digits.foldl (fun n c ↦ n * 10 + (c.toNat - '0'.toNat)) 0
  if !digits.isEmpty && digits.all Char.isDigit && value < UInt64.size then some value else none

/-- The mutations of a kind after a version, in their order. -/
def since (version : Nat) : List Mutation :=
  ((r.record kind).history.filter fun entry ↦ version < entry.1).map (·.2)

/-- Opens a watch on a kind, which delivers the recorded mutations after a version first; without a
version it starts from now. Answers with the number of the stream. -/
def watch (version? : Option String) : Registry × Except TransportError Nat :=
  let start (missed : List Mutation) :=
    let number := r.streams.opened
    let r := r.modify kind fun k ↦
      { k with watchCalls := k.watchCalls + 1, watchers := k.watchers ++ [number] }
    ({ r with streams := r.streams.openWith (missed.map .mutation) }, .ok number)
  match version? with
  | none => start []
  | some text => match parseVersion? text with
    | none => (r, .error (.invalid ("resource version " ++ Text.quote text)))
    | some version => start (r.since kind version)

/-- Takes the next delivery of a watch. -/
def read (stream : Nat) : Registry × Reading :=
  let (streams, reading) := r.streams.read stream
  ({ r with streams }, reading)

/-- Takes what a watch holds, at most `limit` deliveries, and what was found after them; nothing was
looked for after the last one that the limit allows. -/
def readUpTo (r : Registry) (stream : Nat) : Nat → Registry × List Delivery × Option Reading
  | 0 => (r, [], none)
  | limit + 1 => match r.read stream with
    | (r, .delivery d) =>
      let (r, rest, last?) := r.readUpTo stream limit
      (r, d :: rest, last?)
    | (r, last) => (r, [], some last)

/-- Lets go of a watch. -/
def drop (stream : Nat) : Registry := { r with streams := r.streams.drop stream }

/-- The number of open watches on a kind. -/
def openWatches : Nat := (r.streams.live (r.record kind).watchers).length

end Registry

end Informer
