import Informer.Simulation.Basic

/-!
# Running tasks

One step of each task, and whether the task goes on at once. A loop first looks for the stop signal,
then whether its tick is due, and then at what its stream holds.
-/

namespace Informer.Simulation

variable (s : Simulation)

/-! ### The loop of a kind -/

/-- What the loop of a kind finds now. -/
def signalFor (kind : Kind) (e : Entry) : Simulation × Option Signal :=
  if s.cache.stopped && e.reflector ≠ .ended then (s, some .stopped)
  else match e.reflector with
    | .ended => (s, none)
    | .fresh => (s, some .started)
    | .listing | .opening => match s.answers[kind]? with
      | some answer => ({ s with answers := s.answers.erase kind }, some answer)
      | none => (s, none)
    | .pausing till => (s, if till ≤ s.now then some .rested else none)
    | .following stream tick? =>
      if tick?.any (· ≤ s.now) then (s, some .ticked)
      else
        let (streams, reading) := s.remote.streams.read stream
        let s := { s with remote := s.remote.setStreams streams }
        match reading with
        | .delivery d => (s, some (.delivered d))
        | .ended => (s, some .closed)
        | .pending => (s, none)

/-- One step of the loop of a kind. -/
def stepReflector (kind : Kind) : Simulation × Bool :=
  match s.cache.entries[kind]? with
  | none => (s, false)
  | some e => match s.signalFor kind e with
    | (s, none) => (s, false)
    | (s, some signal) =>
      let s := s.take (s.cache.react kind s.now signal)
      let reflector : Reflector := ((s.cache.entries[kind]?).map (·.reflector)).getD .ended
      let s := s.setDue (.reflector kind) reflector.due?
      if reflector = .ended then (s.wake .guards, false) else (s, true)

/-! ### Workers -/

/-- Goes on with the handling of a notification. -/
def stepHandling (kind : Kind) (c : Channel) (n : Notification) (o : ObservedCallback) :
    Simulation × Bool :=
  match o.consumer.handle c.name n with
  | .error report =>
    let s := s.take (s.cache.emit [.publish report])
    (s.take (s.cache.completeWorker kind c.id .returned), true)
  | .ok handling =>
    let finish (s : Simulation) (outcome : Outcome) : Simulation × Bool :=
      let s := match outcome with
        | .returned => s.record o.label handling.recordings
        | .panicked _ => s
      (s.take (s.cache.completeWorker kind c.id outcome), true)
    if !handling.behaves then finish s .returned
    else if o.stuck then (s, false)
    else match if o.behaviour.gated then s.takePermit? o.label else some s with
      | none => (s, false)
      | some s =>
        if o.behaviour.hangs then
          ({ s with callbacks := s.callbacks.insert c.id { o with stuck := true } }, false)
        else finish s (o.behaviour.outcome handling.subject)

/-- One step of the worker of a callback. -/
def stepWorker (kind : Kind) (id : Nat) : Simulation × Bool :=
  match (s.cache.entries[kind]?).bind (·.callbacks.channel? id), s.callbacks[id]? with
  | some c, some o => match c.worker with
    | .busy n => s.stepHandling kind c n o
    | _ => match s.cache.advanceWorker kind id with
      | (cache, .took _) => ({ s with cache }, true)
      | (cache, .waits) => ({ s with cache }, false)
      | (cache, .ended) => ({ s with cache }.wake .guards, false)
  | _, _ => (s, false)

/-- Goes on with the handling of an event. -/
def stepObserving (i : Nat) (e : RuntimeEvent) (o : ObservedSubscriber) : Simulation × Bool :=
  match if o.behaviour.gated then s.takePermit? o.name else some s with
  | none => (s, false)
  | some s =>
    let outcome := o.behaviour.outcome e.topic.name
    let s := match outcome with
      | .panicked _ => s
      | .returned =>
        if o.logs then { s with logged := e :: s.logged }
        else { s with seen := (o.name, e) :: s.seen }
    (s.take (s.cache.completeSubscriber i outcome), true)

/-- One step of the worker of a subscriber. -/
def stepSubscriber (i : Nat) : Simulation × Bool :=
  match s.cache.subscribers.channels[i]?, s.subscribers[i]? with
  | some c, some o => match c.worker with
    | .busy e => s.stepObserving i e o
    | _ => match s.cache.advanceSubscriber i with
      | (cache, .took _) => ({ s with cache }, true)
      | (cache, .waits) => ({ s with cache }, false)
      | (cache, .ended) =>
        let s := { s with cache }
        (if cache.forwarder = .draining then s.wake .forwarder else s, false)
  | _, _ => (s, false)

/-! ### The forwarder and the shutdown -/

/-- One step of the forwarder. -/
def stepForwarder : Simulation × Bool :=
  let (cache, effects, again) := s.cache.forward
  (s.take (cache, effects), again)

/-- One step of the call of the first shutdown. -/
def stepShutdown : Simulation := s.take (s.cache.continueShutdown (s.graceEnd ≤ s.now))

/-- Begins a call that shuts down. The first one collects the tasks and looks at them once; an alarm
tells it when the grace period is over. -/
def callShutdown (alarm : Alarm) : Simulation × Option (Except ShutdownError Unit) :=
  match s.cache.callShutdown with
  | (result, some answer) => (s.take result, some answer)
  | (result, none) =>
    let graceEnd := s.now + s.cache.config.grace
    let s := { s.take result with graceEnd }.setAlarm graceEnd alarm
    ((s.cache.entries.size + 3).repeat stepShutdown s, none)

/-- Goes on with a call that waits for a signal to stop, and whether that changed the call. -/
def stepGuard : Guard → (Simulation × Guard) × Bool
  | .done result => ((s, .done result), false)
  | .watching signalled =>
    if signalled || s.cache.stopped then
      match s.callShutdown (.task .guards) with
      | (s, some result) => ((s, .done result), true)
      | (s, none) => ((s, .stopping), true)
    else ((s, .watching signalled), false)
  | .stopping =>
    let s := s.stepShutdown
    match s.cache.shutdownResult? with
    | some result => ((s, .done result), true)
    | none => ((s, .stopping), false)

/-- Goes on with all calls that wait for a signal to stop, oldest first. -/
def stepGuards : Simulation × Bool :=
  s.guards.zipIdx.foldl (fun (s, again) (g, i) ↦
    let ((s, g), changed) := s.stepGuard g
    ({ s with guards := s.guards.set i g }, again || changed)) (s, false)

/-- One step of a task, and whether the task goes on at once. -/
def step : Task → Simulation × Bool
  | .reflector kind => s.stepReflector kind
  | .worker kind id => s.stepWorker kind id
  | .subscriber i => s.stepSubscriber i
  | .forwarder => s.stepForwarder
  | .guards => s.stepGuards

end Informer.Simulation
