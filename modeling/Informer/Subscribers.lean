import Informer.Effect

/-!
# Fan-out to subscribers

Every runtime event goes to every subscriber through a queue of bounded length. An event that finds
a queue full is dropped for that subscriber alone, and the drop is reported, unless the event is
itself such a report. A worker per subscriber handles one event at a time; a panic is reported and
the worker goes on. When the queues are closed the workers end once they have handled what is
queued.
-/

namespace Informer

/-- The queue and the worker of one subscriber. -/
structure Subscriber where
  name : String
  /-- How many events may wait; at least one. -/
  capacity : Nat
  queue : List RuntimeEvent := []
  worker : Worker RuntimeEvent := .idle

/-- The subscribers, in the order in which they were given. -/
structure Subscribers where
  channels : List Subscriber := []
  /-- Whether the queues are closed. -/
  closed : Bool := false

namespace Subscriber

variable (s : Subscriber)

/-- Why an event cannot be queued now, if it cannot. -/
def refusal? : Option String :=
  if s.worker.isEnded then some "closed"
  else if s.capacity ≤ s.queue.length then some "full"
  else none

/-- Queues an event, if that is possible. -/
def offer (e : RuntimeEvent) : Subscriber :=
  match s.refusal? with
  | none => { s with queue := s.queue ++ [e] }
  | some _ => s

/-- Takes the next event, if the worker waits for one. -/
def take : Subscriber :=
  match s.worker, s.queue with
  | .idle, e :: rest => { s with queue := rest, worker := .busy e }
  | _, _ => s

/-- Ends the worker. -/
def finish : Subscriber := { s with worker := .ended }

/-- Makes the worker wait for the next event. -/
def rest : Subscriber :=
  match s.worker with
  | .busy _ => { s with worker := .idle }
  | _ => s

end Subscriber

namespace Subscribers

/-- Subscribers with these names and capacities; a capacity of zero is taken as one. -/
def ofList (subscribers : List (String × Nat)) : Subscribers where
  channels := subscribers.map fun (name, capacity) ↦ { name, capacity := max capacity 1 }

variable (s : Subscribers)

/-- Changes one subscriber. -/
def modify (i : Nat) (g : Subscriber → Subscriber) : Subscribers :=
  { s with channels := s.channels.modify i g }

/-- What happens elsewhere when an event is offered to one subscriber. -/
def offerEffects (e : RuntimeEvent) (c : Subscriber) (i : Nat) : List Effect :=
  match c.refusal? with
  | none => if c.worker.isIdle then [.wake (.subscriber i)] else []
  | some reason => if e.isOverflow then [] else [.publish (.subscriberOverflow c.name reason)]

/-- Offers an event to every subscriber. -/
def emit (e : RuntimeEvent) : Subscribers × List Effect :=
  ({ s with channels := s.channels.map (·.offer e) },
    s.channels.zipIdx.flatMap fun (c, i) ↦ offerEffects e c i)

/-- Closes the queues; the workers that wait for an event may end. -/
def close : Subscribers × List Effect :=
  ({ s with closed := true }, s.channels.zipIdx.filterMap fun (c, i) ↦
    if c.worker.isIdle then some (.wake (.subscriber i)) else none)

/-- Whether all workers have ended. -/
def allEnded : Bool := s.channels.all (·.worker.isEnded)

/-- What a worker that runs does next. -/
inductive WorkerStep where
  | took (e : RuntimeEvent)
  | waits
  | ended

/-- Runs the worker of a subscriber while it is idle: when the queues are closed it ends with the
last event. -/
def advance (i : Nat) : Subscribers × WorkerStep :=
  match s.channels[i]? with
  | none => (s, .ended)
  | some c => match c.worker with
    | .ended => (s, .ended)
    | .busy _ => (s, .waits)
    | .idle => match c.queue with
      | e :: _ => (s.modify i .take, .took e)
      | [] => if s.closed then (s.modify i .finish, .ended) else (s, .waits)

/-- Ends the handling of an event. -/
def complete (i : Nat) (outcome : Outcome) : Subscribers × List Effect :=
  match s.channels[i]? with
  | none => (s, [])
  | some c => match c.worker, outcome with
    | .busy _, .panicked reason =>
      (s.modify i .rest, [.publish (.subscriberPanicked c.name reason)])
    | .busy _, .returned => (s.modify i .rest, [])
    | _, _ => (s, [])

end Subscribers

end Informer
