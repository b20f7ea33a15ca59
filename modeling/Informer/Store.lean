import Informer.Notification
import Std.Data.ExtTreeSet

/-!
# The local store of one kind

The last observed state of every object of a kind by key, with an index by namespace. Every change
returns the notifications that it implies.

`apply` takes one change and `replace` a full listing, of which it reports the differences only:
a listed object whose version is the one already held stays silent.
-/

namespace Informer

/-- One change of an object, as a watch reports it. -/
inductive Change where
  /-- The object has this state now. -/
  | upsert (object : Object)
  /-- The object is gone; this was its final state. -/
  | remove (observed : Object)
deriving DecidableEq

namespace Change

/-- The key of the object that changed. -/
def key : Change → Key
  | upsert o => o.key
  | remove o => o.key

end Change

/-- The objects of one kind, and their keys by namespace. -/
structure Store where
  objects : Std.ExtTreeMap Key Object := ∅
  byNamespace : Std.ExtTreeMap String (Std.ExtTreeSet Key) := ∅

namespace Store

/-! ### Reading -/

/-- The object under a key. -/
def get? (s : Store) (key : Key) : Option Object := s.objects[key]?

/-- All objects, by ascending key. -/
def toList (s : Store) : List Object := s.objects.toList.map (·.2)

/-- The objects of a namespace, by ascending key, found through the index. -/
def listNamespace (s : Store) (ns : String) : List Object :=
  ((s.byNamespace[ns]?.getD ∅).toList).filterMap fun key ↦ s.objects[key]?

/-- The number of objects. -/
def size (s : Store) : Nat := s.objects.size

/-! ### Writing -/

/-- Enters a key into the index, unless it is cluster-scoped. -/
def enterIndex (index : Std.ExtTreeMap String (Std.ExtTreeSet Key)) (key : Key) :
    Std.ExtTreeMap String (Std.ExtTreeSet Key) :=
  match key.ns? with
  | none => index
  | some ns => index.insert ns ((index[ns]?.getD ∅).insert key)

/-- Takes a key out of the index, and its namespace with it if that was the last key. -/
def leaveIndex (index : Std.ExtTreeMap String (Std.ExtTreeSet Key)) (key : Key) :
    Std.ExtTreeMap String (Std.ExtTreeSet Key) :=
  match key.ns? with
  | none => index
  | some ns => match index[ns]? with
    | none => index
    | some keys =>
      if (keys.erase key).isEmpty then index.erase ns else index.insert ns (keys.erase key)

/-- Puts an object under its own key. -/
def insert (s : Store) (o : Object) : Store where
  objects := s.objects.insert o.key o
  byNamespace := enterIndex s.byNamespace o.key

/-- Removes the object under a key, if there is one. -/
def erase (s : Store) (key : Key) : Store :=
  match s.objects[key]? with
  | none => s
  | some _ => {
    objects := s.objects.erase key
    byNamespace := leaveIndex s.byNamespace key }

/-- Applies one change and reports it. -/
def apply (s : Store) : Change → Store × Notification
  | .upsert o => (s.insert o, match s.get? o.key with
    | some old => .updated old o
    | none => .added o)
  | .remove observed => (s.erase observed.key, .deleted (s.get? observed.key) observed)

/-- Whether a listed object has the version of the object already held. -/
def isCurrent (s : Store) (o : Object) : Bool :=
  match s.get? o.key with
  | some held => held.version?.isSome && held.version? == o.version?
  | none => false

/-- Takes in a listing object by object, passing over those whose version is held already. -/
def applyListed (s : Store) : List Object → Store × List Notification
  | [] => (s, [])
  | o :: rest =>
    if s.isCurrent o then s.applyListed rest
    else
      let (s, notification) := s.apply (.upsert o)
      let (s, notifications) := s.applyListed rest
      (s, notification :: notifications)

/-- Removes held objects one by one, each reported in the state that was held. -/
def removeHeld (s : Store) : List Key → Store × List Notification
  | [] => (s, [])
  | key :: rest => match s.get? key with
    | none => s.removeHeld rest
    | some held =>
      let (s, notifications) := (s.erase key).removeHeld rest
      (s, .deleted (some held) held :: notifications)

/-- Replaces the contents by a listing and reports the differences: the listed objects that are new
or changed in the order of the listing, then the objects that it lacks by ascending key. -/
def replace (s : Store) (listed : List Object) : Store × List Notification :=
  let (s, changed) := s.applyListed listed
  let gone := s.objects.keys.filter fun key ↦ !listed.any (·.key = key)
  let (s, removed) := s.removeHeld gone
  (s, changed ++ removed)

/-- Every object as just added, by ascending key. -/
def replay (s : Store) : List Notification := s.toList.map .added

/-- Every object as updated from its own state, by ascending key. -/
def resync (s : Store) : List Notification := s.toList.map fun o ↦ .updated o o

end Store

end Informer
