import Informer.RuntimeEvent

/-!
# Log records

The record that a runtime event is logged as. Failures are warnings; a lifecycle event is logged for
information, or for debugging if it recurs in normal operation. A text that the event lacks is
logged as `-`; a count that it lacks is left out.
-/

namespace Informer

/-- The level of a record. -/
inductive Level where
  | debug
  | info
  | warn
deriving DecidableEq

/-- The name of a level. -/
def Level.name : Level → String
  | debug => "DEBUG"
  | info => "INFO"
  | warn => "WARN"

/-- The value of a field of a record. -/
inductive LogValue where
  | text (s : String)
  | number (n : Nat)
deriving DecidableEq

/-- A structured log record. -/
structure LogRecord where
  level : Level
  message : String
  fields : List (String × LogValue) := []
deriving DecidableEq

namespace LogRecord

/-- A field with a text that may be absent. -/
def textField (name : String) (text? : Option String) : List (String × LogValue) :=
  [(name, .text (text?.getD "-"))]

/-- A field with a number that may be absent. -/
def numberField (name : String) : Option Nat → List (String × LogValue)
  | some n => [(name, .number n)]
  | none => []

/-- The record of a runtime event. -/
def ofEvent (e : RuntimeEvent) : LogRecord :=
  let kind := textField "gvk" e.kind?
  let source := textField "source" e.source?
  let reason := textField "reason" e.reason?
  let subscriber := textField "subscriber" e.source?
  match e.topic with
  | .watchStarted => ⟨.info, "watch started", kind⟩
  | .cacheSynced => ⟨.info, "cache synced", kind ++ numberField "objects" e.count?⟩
  | .watchFailed => ⟨.warn, "watch failed", kind ++ reason⟩
  | .watchClosed => ⟨.debug, "watch closed by remote", kind⟩
  | .listFailed => ⟨.warn, "list failed", kind ++ reason⟩
  | .resynced => ⟨.debug, "resync delivered", kind ++ numberField "objects" e.count?⟩
  | .notificationDropped =>
    ⟨.warn, "notification dropped", kind ++ textField "object" e.object? ++ source ++ reason⟩
  | .sourceStarted => ⟨.info, "source started", kind ++ source⟩
  | .callbackBacklog =>
    ⟨.warn, "handler is falling behind", kind ++ source ++ numberField "pending" e.count?⟩
  | .callbackPanicked => ⟨.warn, "handler panicked", kind ++ source ++ reason⟩
  | .subscriberOverflow => ⟨.warn, "subscriber dropped event", subscriber ++ reason⟩
  | .subscriberPanicked => ⟨.warn, "subscriber panicked", subscriber ++ reason⟩
  | .shutdownRequested => ⟨.info, "shutdown requested", []⟩
  | .allStoppedWithin => ⟨.info, "all watches stopped within grace", []⟩
  | .graceExceeded => ⟨.warn, "shutdown grace exceeded", []⟩

/-- The text of a field. -/
def text? (name : String) (r : LogRecord) : Option String :=
  match r.fields.lookup name with
  | some (.text s) => some s
  | _ => none

end LogRecord

end Informer
