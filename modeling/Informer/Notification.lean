import Informer.Object

/-!
# Notifications

What a store reports about one change to its contents, with the state before and the state after it.
-/

namespace Informer

/-- One change of a store's contents. -/
inductive Notification where
  /-- The object was not held before. -/
  | added (object : Object)
  /-- The object took the place of `old`; a resync reports one state twice. -/
  | updated (old new : Object)
  /-- The object left the remote store, which reported it as `observed`; `lastKnown?` is the state
  that was held, if one was. -/
  | deleted (lastKnown? : Option Object) (observed : Object)
deriving DecidableEq

namespace Notification

/-- The key of the object that the notification is about. -/
def key : Notification → Key
  | added o => o.key
  | updated _ new => new.key
  | deleted _ observed => observed.key

/-- The label of the change. -/
def operation : Notification → String
  | added _ => "add"
  | updated _ _ => "update"
  | deleted _ _ => "delete"

end Notification

end Informer
