import Informer.Json.Basic

/-!
# The remote side

What a transport says: the answer to a list call, the mutations that a watch delivers, and its
errors. The cache knows a remote store through these types only.
-/

namespace Informer

/-- A failure of the remote side, with its own words. -/
inductive TransportError where
  | unavailable (text : String)
  | closed (text : String)
  | notFound (text : String)
  | conflict (text : String)
  | invalid (text : String)
  | other (text : String)
deriving DecidableEq

namespace TransportError

/-- The wording of an error. -/
def message : TransportError → String
  | unavailable text => "transport unavailable: " ++ text
  | closed text => "watch closed by remote: " ++ text
  | notFound text => "not found: " ++ text
  | conflict text => "conflict: " ++ text
  | invalid text => "invalid object: " ++ text
  | other text => "transport error: " ++ text

/-- The stable label of an error. -/
def label : TransportError → String
  | unavailable _ => "transport_unavailable"
  | closed _ => "transport_closed"
  | notFound _ => "transport_not_found"
  | conflict _ => "transport_conflict"
  | invalid _ => "transport_invalid"
  | other _ => "transport_other"

end TransportError

/-- A change of a remote object; a deletion carries the final state of the object. -/
inductive Mutation where
  | added (payload : Json)
  | modified (payload : Json)
  | deleted (payload : Json)
deriving DecidableEq

namespace Mutation

/-- The payload that a mutation carries. -/
def payload : Mutation → Json
  | added p => p
  | modified p => p
  | deleted p => p

end Mutation

/-- A call on the remote side. -/
inductive Call where
  | list
  | watch (version? : Option String)
deriving DecidableEq

/-- The objects of a kind at one point in time, and the version to watch from. -/
structure Listing where
  payloads : List Json
  /-- Absent when a watch can only start from now. -/
  version? : Option String
deriving DecidableEq

/-- What one reading of a watch yields: a mutation, or the error that ends the watch. -/
inductive Delivery where
  | mutation (m : Mutation)
  | failure (e : TransportError)
deriving DecidableEq

end Informer
