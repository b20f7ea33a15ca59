import Informer.Source

/-!
# Consumers under observation

What takes the place of real callbacks, handlers and subscribers when a cache is observed: consumers
that record what they are given and that can be told to wait for permits, to panic or never to
return.
-/

namespace Informer.Simulation

/-- The way a consumer panics. -/
inductive PanicStyle where
  /-- With a fixed text. -/
  | literal
  /-- With a text that names what it was given. -/
  | format
  /-- With something that is not a text. -/
  | other
deriving DecidableEq

/-- How a consumer behaves besides recording. -/
structure Behaviour where
  /-- Whether it waits for a permit before each item. -/
  gated : Bool := false
  /-- Whether it never returns. -/
  hangs : Bool := false
  /-- The subjects on which it panics. -/
  panicsOn : List String := []
  style : PanicStyle := .format

/-- What a panic on a subject is reported as. -/
def PanicStyle.reason (subject : String) : PanicStyle → String
  | literal => "boom"
  | format => "cannot handle " ++ subject
  | other => "unknown panic"

/-- How the handling of a subject ends. -/
def Behaviour.outcome (b : Behaviour) (subject : String) : Outcome :=
  if b.panicsOn.contains subject then .panicked (b.style.reason subject) else .returned

/-- What a consumer records. -/
inductive Recording where
  | notification (n : Notification)
  | event (resource : Known) (e : ObjectEvent resource.Carrier)
  | request (key : Key)
  | line (text : String)

/-- What stands behind a callback. -/
inductive Consumer where
  /-- Records notifications. -/
  | notifications
  /-- The handler of a source; records typed events. -/
  | events (resource : Known)
  /-- The handler of a source; records the key of each event, if anyone takes the requests. -/
  | requests (resource : Known) (taken : Bool)
  /-- The handler of a source; has functions for some operations, which record a line. -/
  | functions (resource : Known) (operations : List String)

/-- What the handling of a notification amounts to. -/
structure Handling where
  recordings : List Recording
  /-- What a panic is decided by and reported with. -/
  subject : String
  /-- Whether the behaviour of the consumer applies. -/
  behaves : Bool

/-- The line that a function records of an event; it says of an update whether the object stayed the
same, and of a deletion whether the object is known. -/
def lineOf (resource : Known) : ObjectEvent resource.Carrier → String
  | .create m _ => "create " ++ m.key.display
  | .update _ old m new => "update " ++ m.key.display ++ " " ++ toString (decide (old = new))
  | .delete m x => "delete " ++ m.key.display ++ " " ++ toString x.isSome

/-- What a consumer behind a callback called `name` makes of a notification. -/
def Consumer.handle (name : String) (n : Notification) : Consumer → Except RuntimeEvent Handling
  | notifications => .ok ⟨[.notification n], n.key.name, true⟩
  | events resource => do
    let e ← Source.interpret resource.Carrier name n
    return ⟨[.event resource e], e.key.name, true⟩
  | requests resource taken => do
    let e ← Source.interpret resource.Carrier name n
    return ⟨if taken then [.request e.key] else [], e.key.name, false⟩
  | functions resource operations => do
    let e ← Source.interpret resource.Carrier name n
    return ⟨if operations.contains e.operation then [.line (lineOf resource e)] else [],
      e.key.name, false⟩

/-- A callback under observation. -/
structure ObservedCallback where
  /-- What its recordings and its permits go by. -/
  label : String
  consumer : Consumer
  behaviour : Behaviour := {}
  /-- Whether it is handling something that it never returns from. -/
  stuck : Bool := false

/-- A subscriber under observation. -/
structure ObservedSubscriber where
  name : String
  capacity : Nat := 1024
  behaviour : Behaviour := {}
  /-- Whether it writes log records instead of recording events. -/
  logs : Bool := false

end Informer.Simulation
