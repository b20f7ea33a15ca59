import Informer.Text.Duration

/-!
# Settings

The settings that all entries of a cache share. Durations are in milliseconds. A zero resync period
and a zero backlog threshold switch the feature off.
-/

namespace Informer

/-- The settings of a cache. -/
structure Config where
  /-- How many runtime events the bus keeps. -/
  busCapacity : Nat := 1024
  /-- The pause before listing again after a failure. -/
  rewatchDelay : Nat := 1000
  /-- The interval at which all objects are delivered again; zero for never. -/
  resyncPeriod : Nat := 0
  /-- The number of waiting notifications that is reported; zero for none. -/
  backlogThreshold : Nat := 1024
  /-- How long a shutdown waits. -/
  grace : Nat := 30000
deriving DecidableEq

namespace Config

/-- The interval between resyncs, if there are any. -/
def resync? (c : Config) : Option Nat := if c.resyncPeriod = 0 then none else some c.resyncPeriod

/-- The number of waiting notifications that is reported, if one is. -/
def backlog? (c : Config) : Option Nat :=
  if c.backlogThreshold = 0 then none else some c.backlogThreshold

/-- How a debug text shows the settings. -/
def debug (c : Config) : String :=
  "CacheConfig \x7b bus_capacity: " ++ toString c.busCapacity
    ++ ", rewatch_delay: " ++ Text.duration c.rewatchDelay
    ++ ", resync_period: " ++ Text.duration c.resyncPeriod
    ++ ", backlog_warn_threshold: " ++ toString c.backlogThreshold
    ++ ", grace: " ++ Text.duration c.grace ++ " \x7d"

end Config

end Informer
