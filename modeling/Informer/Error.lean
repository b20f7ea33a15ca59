import Informer.Kind
import Informer.Text.Duration

/-!
# Errors of the cache and its sources

The causes for which a call on a cache or a source fails, with their wordings and stable labels.
-/

namespace Informer

/-- Why a cache refuses a call. -/
inductive CacheError where
  /-- The stop signal was given; no new watch is created. -/
  | stopped
deriving DecidableEq

namespace CacheError

/-- The wording of an error. -/
def message : CacheError → String
  | stopped => "object cache is stopped"

/-- The stable label of an error. -/
def label : CacheError → String
  | stopped => "cache_stopped"

end CacheError

/-- Why a shutdown fails. -/
inductive ShutdownError where
  /-- Tasks of the `stuck` kinds still ran when the grace period of `grace` milliseconds ended. -/
  | graceExceeded (grace : Nat) (stuck : List String)
deriving DecidableEq

namespace ShutdownError

/-- The wording of an error. -/
def message : ShutdownError → String
  | graceExceeded grace stuck =>
    "shutdown timeout " ++ Text.duration grace ++ " exceeded; stuck: " ++ Text.quoteList stuck

/-- The stable label of an error. -/
def label : ShutdownError → String
  | graceExceeded _ _ => "runtime_grace_exceeded"

end ShutdownError

/-- Why a source cannot be bound or started. -/
inductive SourceError where
  /-- It has no cache yet. -/
  | notBound (kind : Kind)
  /-- It has a cache already. -/
  | alreadyBound (kind : Kind)
  /-- It runs already. -/
  | alreadyStarted (kind : Kind)
  /-- Its cache refused. -/
  | cache (cause : CacheError)
deriving DecidableEq

namespace SourceError

/-- The wording of an error. -/
def message : SourceError → String
  | notBound kind =>
    "source for " ++ kind.display ++ " must be bound to a cache before it is started"
  | alreadyBound kind => "source for " ++ kind.display ++ " is already bound"
  | alreadyStarted kind => "source for " ++ kind.display ++ " is already started"
  | cache cause => cause.message

/-- The stable label of an error. -/
def label : SourceError → String
  | notBound _ => "source_not_bound"
  | alreadyBound _ => "source_already_bound"
  | alreadyStarted _ => "source_already_started"
  | cache cause => cause.label

end SourceError

end Informer
