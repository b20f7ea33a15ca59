import Informer.Effect
import Informer.Notification

/-!
# Fan-out to callbacks

Every notification of one kind goes to every callback through a queue of its own, which has no
bound. A worker per callback takes one notification at a time; a panic is reported and the worker
goes on; once the stop signal is given a worker takes no other notification and ends.

A channel counts its waiting notifications beside its queue. The count decides when a backlog is
reported: at the step that brings it to the threshold, and at no other.

`dispatch` treats the channels independently of each other (`channels_dispatch`), so nothing that
happens to one callback can touch another.
-/

namespace Informer

/-- The queue and the worker of one callback. -/
structure Channel where
  /-- The number of the callback. -/
  id : Nat
  /-- The name of the callback in runtime events. -/
  name : String
  /-- What waits for the worker, or was left behind when it ended. -/
  queue : List Notification := []
  /-- How many notifications are counted as waiting. -/
  pending : Nat := 0
  worker : Worker Notification := .idle

/-- The callbacks of one kind, oldest first. -/
structure Fanout where
  kind : Kind
  /-- The number of waiting notifications that is reported. -/
  backlog? : Option Nat
  channels : List Channel := []

namespace Channel

variable (c : Channel)

/-- Queues a notification, unless the worker has ended. -/
def push (n : Notification) : Channel :=
  if c.worker.isEnded then c else { c with queue := c.queue ++ [n], pending := c.pending + 1 }

/-- Takes the next notification, if the worker waits for one. -/
def take : Channel :=
  match c.worker, c.queue with
  | .idle, n :: rest => { c with queue := rest, pending := c.pending - 1, worker := .busy n }
  | _, _ => c

/-- Ends the worker. -/
def finish : Channel := { c with worker := .ended }

/-- Makes the worker wait for the next notification. -/
def rest : Channel :=
  match c.worker with
  | .busy _ => { c with worker := .idle }
  | _ => c

end Channel

namespace Fanout

variable (f : Fanout)

/-- The channel of a callback. -/
def channel? (id : Nat) : Option Channel := f.channels.find? (·.id = id)

/-- Changes the channel of a callback. -/
def modify (id : Nat) (g : Channel → Channel) : Fanout :=
  { f with channels := f.channels.map fun c ↦ if c.id = id then g c else c }

/-- Whether a callback is registered here. -/
def contains (id : Nat) : Bool := f.channels.any (·.id = id)

/-- The task of a channel's worker. -/
def task (c : Channel) : Task := .worker f.kind c.id

/-- The report that one more notification brings a channel to the threshold. -/
def warning (c : Channel) : List Effect :=
  if c.worker.isEnded then []
  else if f.backlog? = some (c.pending + 1) then
    [.publish (.callbackBacklog f.kind c.name (c.pending + 1))]
  else []

/-- What happens elsewhere when one more notification is queued on a channel. -/
def pushEffects (c : Channel) : List Effect :=
  (if c.worker.isIdle then [.wake (f.task c)] else []) ++ f.warning c

/-- Queues a notification on every channel. -/
def dispatch (n : Notification) : Fanout × List Effect :=
  ({ f with channels := f.channels.map (·.push n) }, f.channels.flatMap f.pushEffects)

/-- Queues notifications on every channel, one after another. -/
def dispatchAll (f : Fanout) : List Notification → Fanout × List Effect
  | [] => (f, [])
  | n :: rest =>
    let (f, first) := f.dispatch n
    let (f, later) := f.dispatchAll rest
    (f, first ++ later)

/-- The reports that queueing notifications on one channel brings about. -/
def warnings (c : Channel) : List Notification → List Effect
  | [] => []
  | n :: rest => f.warning c ++ warnings (c.push n) rest

/-- Registers a callback, which first catches up with `replay`. -/
def register (id : Nat) (name : String) (replay : List Notification) : Fanout × List Effect :=
  let c : Channel := { id, name }
  ({ f with channels := f.channels ++ [replay.foldl (·.push) c] },
    f.warnings c replay ++ [.wake (f.task c)])

/-! ### Workers -/

/-- What a worker that runs does next. -/
inductive WorkerStep where
  | took (n : Notification)
  | waits
  | ended

/-- Runs the worker of a callback while it is idle: after the stop signal it ends. The worker does
not wait between its look for the signal and the beginning of a handling, so they make one step
where tasks take turns. -/
def advance (stopped : Bool) (id : Nat) : Fanout × WorkerStep :=
  match f.channel? id with
  | none => (f, .ended)
  | some c => match c.worker with
    | .ended => (f, .ended)
    | .busy _ => (f, .waits)
    | .idle =>
      if stopped then (f.modify id .finish, .ended)
      else match c.queue with
        | [] => (f, .waits)
        | n :: _ => (f.modify id .take, .took n)

/-- Ends the handling of a notification. -/
def complete (id : Nat) (outcome : Outcome) : Fanout × List Effect :=
  match f.channel? id with
  | none => (f, [])
  | some c => match c.worker, outcome with
    | .busy n, .panicked reason =>
      (f.modify id .rest, [.publish (.callbackPanicked f.kind c.name n.key reason)])
    | .busy _, .returned => (f.modify id .rest, [])
    | _, _ => (f, [])

/-- Ends a worker whatever it is doing. -/
def abort (id : Nat) : Fanout := f.modify id .finish

@[simp] theorem channels_dispatch (n : Notification) :
    (f.dispatch n).1.channels = f.channels.map (·.push n) := rfl

end Fanout

end Informer
