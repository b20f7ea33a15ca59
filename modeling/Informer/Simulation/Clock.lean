import Informer.Simulation.Task

/-!
# Schedule and clock

Tasks run one at a time, each until it has to wait, in the order in which they were woken. The clock
stands while any task may run; a caller that waits lets it jump from one alarm to the next.

A run that does not come to rest is cut off after `patience` steps. There is one way to get there: a
pause of no length before listing again, while every list fails.
-/

namespace Informer.Simulation

/-- How many steps tasks are given to come to rest. -/
def patience : Nat := 100000

/-- How many times a caller that waits looks: for every millisecond of an hour, and more. -/
def endurance : Nat := 10000000

/-- Runs one step of the task whose turn it is. -/
def runNext (s : Simulation) : Simulation :=
  match s.ready with
  | [] => s
  | t :: rest =>
    let (s, again) := { s with ready := rest, running := some t }.step t
    { s with running := none, ready := if again then t :: s.ready else s.ready }

/-- Lets the tasks run that may run, for at most `bound` steps. -/
def runReady : Nat → Simulation → Simulation
  | 0, s => s
  | bound + 1, s => if s.ready.isEmpty then s else runReady bound s.runNext

/-- Sets off one alarm. -/
def ring (s : Simulation) : Alarm → Simulation
  | .task t => s.wake t
  | .permits label count => s.addPermits label count
  | .caller => s

/-- Sets off the alarms that are due. -/
def ringDue (s : Simulation) : Simulation :=
  let due := s.alarms.filter (·.1 ≤ s.now)
  (due.map (·.2)).foldl ring { s with alarms := s.alarms.filter (¬ ·.1 ≤ s.now) }

/-- Lets everything run that may run now, with the alarms that are due, in at most `bound`
rounds. -/
def restUpTo : Nat → Simulation → Simulation
  | 0, s => s
  | bound + 1, s =>
    let s := runReady patience s.ringDue
    if s.ready.isEmpty && s.alarms.any (·.1 ≤ s.now) then restUpTo bound s else s

/-- Lets everything run that may run now. The clock stands. -/
def rest (s : Simulation) : Simulation := restUpTo patience s

/-- Moves the clock to the next alarm, or to `limit` if that comes first, and sets off what is
due. -/
def jump (limit : Nat) (s : Simulation) : Simulation :=
  let next := (s.alarms.map (·.1)).foldl min limit
  { s with now := max s.now next }.ringDue

/-- Waits until `poll` has a result, at most until `limit` and for at most `bound` alarms. The
caller looks once before the tasks that may run, and again when they have run. -/
def waitUpTo {α : Type} (poll : Simulation → Simulation × Option α) (limit : Nat) :
    Nat → Simulation → Simulation × Option α
  | 0, s => (s, none)
  | bound + 1, s => match poll s with
    | (s, some result) => (s, some result)
    | (s, none) =>
      if limit ≤ s.now then (s, none)
      else if s.ready.isEmpty then waitUpTo poll limit bound (s.jump limit)
      else
        let s := runReady patience s
        if s.ready.isEmpty then waitUpTo poll limit bound s else (s, none)

/-- Waits until `poll` has a result, at most until `limit`, and lets everything come to rest. -/
def wait {α : Type} (poll : Simulation → Simulation × Option α) (limit : Nat) (s : Simulation) :
    Simulation × Option α :=
  let (s, result?) := waitUpTo poll limit endurance s
  (s.rest, result?)

end Informer.Simulation
