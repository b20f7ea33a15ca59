import Informer.Proofs.CacheStep

/-!
# The stop signal between two looks of a worker

A worker that is idle looks for the stop signal and then at its queue. It does not wait in between,
so the two looks make one step where tasks take turns (`Fanout.advance`, by `stepAll_advance`). On a
thread of its own the worker may be overtaken there: the stop signal is given after it has looked
for it, and then it still begins to handle what is in its queue.

The rule is that the look decides. Once the stop signal is given no look lets the worker go on, so
it begins with one notification at most, and only if it was between its two looks when the signal
was given (`begun_of_stopped`). A run on two threads comes to what a run in turns comes to, in which
the signal is given after that handling has begun (`exists_turns`): nothing that the worker does can
tell the one from the other.
-/

namespace Informer

/-- A channel, and where its worker is with its two looks. -/
structure Pickup where
  channel : Channel
  /-- Whether the stop signal was given. -/
  stopped : Bool := false
  /-- The worker has found no stop signal, and looks next at its queue. -/
  letThrough : Bool := false
  /-- What the worker began to handle. -/
  begun : List Notification := []

/-- What one of the threads does at once. -/
inductive Pickup.Move where
  /-- The stop signal is given. -/
  | stop
  /-- A notification is queued. -/
  | push (n : Notification)
  /-- The worker, when it is idle, looks for the stop signal. -/
  | look
  /-- The worker looks at its queue. If there is nothing it waits, and begins anew with a `look`. -/
  | receive
  /-- The handling ends. -/
  | rest

namespace Pickup

/-- One move. -/
def step (p : Pickup) : Move → Pickup
  | .stop => { p with stopped := true }
  | .push n => { p with channel := p.channel.push n }
  | .look => match p.channel.worker, p.letThrough with
    | .idle, false =>
      if p.stopped then { p with channel := p.channel.finish } else { p with letThrough := true }
    | _, _ => p
  | .receive => match p.letThrough, p.channel.worker, p.channel.queue with
    | true, .idle, n :: _ =>
      { p with channel := p.channel.take, letThrough := false, begun := p.begun ++ [n] }
    | true, _, _ => { p with letThrough := false }
    | false, _, _ => p
  | .rest => { p with channel := p.channel.rest }

/-- Some moves, in the order in which the threads come to them. -/
def stepAll (p : Pickup) (moves : List Move) : Pickup := moves.foldl step p

variable {p : Pickup}

/-- After the stop signal a move begins with something only by using up the look that let the worker
through. -/
theorem step_of_stopped (h : p.stopped = true) (move : Move) :
    (p.step move).stopped = true ∧ ∃ late, (p.step move).begun = p.begun ++ late ∧
      late.length + (p.step move).letThrough.toNat ≤ p.letThrough.toNat := by
  have hnone {letThrough : Bool} (hle : letThrough.toNat ≤ p.letThrough.toNat) :
      ∃ late, p.begun = p.begun ++ late ∧
        late.length + letThrough.toNat ≤ p.letThrough.toNat :=
    ⟨[], (List.append_nil _).symm, by simpa using hle⟩
  cases move with
  | stop => exact ⟨rfl, hnone (Nat.le_refl _)⟩
  | push n => exact ⟨h, hnone (Nat.le_refl _)⟩
  | look =>
    simp only [step, h, if_true]
    split
    · exact ⟨rfl, hnone (Nat.le_refl _)⟩
    · exact ⟨h, hnone (Nat.le_refl _)⟩
  | receive =>
    simp only [step]
    split
    · next n _ hthrough _ _ => exact ⟨h, [n], rfl, by simp [hthrough]⟩
    · exact ⟨h, hnone (Nat.zero_le _)⟩
    · exact ⟨h, hnone (Nat.le_refl _)⟩
  | rest => exact ⟨h, hnone (Nat.le_refl _)⟩

/-- **After the stop signal a worker begins with one notification at most**, and only if it had
looked for the signal before it was given. -/
theorem begun_of_stopped (h : p.stopped = true) (moves : List Move) :
    ∃ late, (p.stepAll moves).begun = p.begun ++ late ∧ late.length ≤ p.letThrough.toNat := by
  induction moves generalizing p with
  | nil => exact ⟨[], (List.append_nil _).symm, Nat.zero_le _⟩
  | cons move moves ih =>
    obtain ⟨hstopped, first, hfirst, hle⟩ := step_of_stopped h move
    obtain ⟨later, hlater, hle'⟩ := ih hstopped
    refine ⟨first ++ later, ?_, ?_⟩
    · rw [← List.append_assoc, ← hfirst]
      exact hlater
    · rw [List.length_append]
      omega

/-- That it may begin with one: the stop signal is given between its two looks. -/
example (n : Notification) :
    let p : Pickup := { channel := { id := 1, name := "c", queue := [n], pending := 1 } }
    (p.stepAll [.look, .stop, .receive]).begun = [n] :=
  rfl

/-- **The two looks, with nothing in between, are the one step of the worker.** -/
theorem stepAll_advance {f : Fanout} {id : Nat} (hc : f.channel? id = some p.channel)
    (hworker : p.channel.worker = .idle) (hlook : p.letThrough = false) :
    let p' := p.stepAll [.look, .receive]
    let result := f.advance p.stopped id
    result.1.channel? id = some p'.channel ∧ p'.letThrough = false ∧
      p'.begun = p.begun ++ result.2.taken?.toList := by
  obtain ⟨channel, stopped, letThrough, begun⟩ := p
  simp only at hc hworker hlook
  subst hlook
  cases stopped with
  | true =>
    simp [stepAll, step, hworker, Fanout.advance, hc, Fanout.channel?_modify_self Fanout.finish_id,
      Fanout.WorkerStep.taken?]
  | false =>
    rcases hq : channel.queue with - | ⟨n, rest⟩
    · simp [stepAll, step, hworker, hq, Fanout.advance, hc, Fanout.WorkerStep.taken?]
    · simp [stepAll, step, hworker, hq, Fanout.advance, hc, Fanout.WorkerStep.taken?,
        Fanout.channel?_modify_self Fanout.take_id]

/-! ### Runs in turns -/

/-- What happens where the worker and the others take turns. -/
inductive Turn where
  | stop
  | push (n : Notification)
  /-- The worker runs. -/
  | advance
  | rest

/-- The moves of a turn, with nothing in between. -/
def Turn.moves : Turn → List Move
  | stop => [.stop]
  | push n => [.push n]
  | advance => [.look, .receive]
  | rest => [.rest]

/-- Some turns, one after another. -/
def turnAll (p : Pickup) (turns : List Turn) : Pickup := p.stepAll (turns.flatMap Turn.moves)

theorem turnAll_concat (p : Pickup) (turns : List Turn) (turn : Turn) :
    p.turnAll (turns ++ [turn]) = (p.turnAll turns).stepAll turn.moves := by
  simp [turnAll, stepAll, List.flatMap_append, List.foldl_append]

/-- What some turns come to, but for a look that has let the worker through and the stop signal that
may have been given since. -/
def InTurns (p q : Pickup) : Prop :=
  (q.letThrough = false ∧ ∃ turns, p.turnAll turns = q) ∨
    (q.letThrough = true ∧ q.channel.worker = .idle ∧
      ∃ turns, p.turnAll turns = { q with letThrough := false, stopped := false })

variable {q : Pickup}

/-- A worker that was not let through does not look at its queue. -/
theorem step_receive (h : q.letThrough = false) : q.step .receive = q := by
  simp [step, h]

/-- A move of a worker that is not between its looks, or of the others. -/
theorem InTurns.step_rests {turns : List Turn} (h : p.turnAll turns = q)
    (hlook : q.letThrough = false) (move : Move) : p.InTurns (q.step move) := by
  have hone (turn : Turn) (hturn : q.stepAll turn.moves = q.step move)
      (hstays : (q.step move).letThrough = false) : p.InTurns (q.step move) :=
    .inl ⟨hstays, turns ++ [turn], by rw [turnAll_concat, h, hturn]⟩
  cases move with
  | stop => exact hone .stop rfl hlook
  | push n => exact hone (.push n) rfl hlook
  | rest => exact hone .rest rfl hlook
  | receive =>
    rw [step_receive hlook]
    exact .inl ⟨hlook, turns, h⟩
  | look =>
    by_cases hidle : q.channel.worker = .idle
    · cases hstopped : q.stopped with
      | true =>
        have hends : q.step .look = { q with channel := q.channel.finish } := by
          simp [step, hidle, hlook, hstopped]
        have hstays : (q.step .look).letThrough = false := by
          rw [hends]
          exact hlook
        exact hone .advance (step_receive hstays) hstays
      | false =>
        have hthrough : q.step .look = { q with letThrough := true } := by
          simp [step, hidle, hlook, hstopped]
        have hsame : { q with letThrough := false, stopped := false } = q := by
          cases q
          simp_all
        rw [hthrough]
        exact .inr ⟨rfl, hidle, turns, h.trans hsame.symm⟩
    · have hsame : q.step .look = q := by
        cases hw : q.channel.worker <;> simp_all [step]
      rw [hsame]
      exact .inl ⟨hlook, turns, h⟩

/-- A worker that was let through looks at its queue, whether or not the signal was given since. -/
theorem exists_received {channel : Channel} (hidle : channel.worker = .idle)
    (begun : List Notification) : ∃ channel' begun', ∀ stopped,
      step ⟨channel, stopped, true, begun⟩ .receive = ⟨channel', stopped, false, begun'⟩ := by
  rcases hq : channel.queue with - | ⟨n, rest⟩
  · exact ⟨channel, begun, fun _ ↦ by simp [step, hidle, hq]⟩
  · exact ⟨channel.take, begun ++ [n], fun _ ↦ by simp [step, hidle, hq]⟩

/-- A move while the worker is between its two looks. -/
theorem InTurns.step_between {turns : List Turn}
    (h : p.turnAll turns = { q with letThrough := false, stopped := false })
    (hlook : q.letThrough = true) (hidle : q.channel.worker = .idle) (move : Move) :
    p.InTurns (q.step move) := by
  obtain ⟨channel, stopped, letThrough, begun⟩ := q
  simp only at h hlook hidle
  subst hlook
  cases move with
  | stop => exact .inr ⟨rfl, hidle, turns, h⟩
  | push n =>
    refine .inr ⟨rfl, (Fanout.push_worker _ _).trans hidle, turns ++ [.push n], ?_⟩
    rw [turnAll_concat, h]
    rfl
  | rest =>
    have hsame : step ⟨channel, stopped, true, begun⟩ .rest = ⟨channel, stopped, true, begun⟩ := by
      simp [step, Channel.rest, hidle]
    rw [hsame]
    exact .inr ⟨rfl, hidle, turns, h⟩
  | look =>
    have hsame : step ⟨channel, stopped, true, begun⟩ .look = ⟨channel, stopped, true, begun⟩ := by
      simp [step]
    rw [hsame]
    exact .inr ⟨rfl, hidle, turns, h⟩
  | receive =>
    obtain ⟨channel', begun', hreceived⟩ := exists_received hidle begun
    have hthrough : step ⟨channel, false, false, begun⟩ .look = ⟨channel, false, true, begun⟩ := by
      simp [step, hidle]
    have hrun : p.turnAll (turns ++ [.advance]) = ⟨channel', false, false, begun'⟩ := by
      rw [turnAll_concat, h]
      show step (step ⟨channel, false, false, begun⟩ .look) .receive = _
      rw [hthrough, hreceived]
    -- the signal, if it was given in between, is given after the turn
    rw [hreceived]
    cases stopped with
    | false => exact .inl ⟨rfl, _, hrun⟩
    | true =>
      refine .inl ⟨rfl, (turns ++ [.advance]) ++ [.stop], ?_⟩
      rw [turnAll_concat, hrun]
      rfl

theorem InTurns.step (h : p.InTurns q) (move : Move) : p.InTurns (q.step move) := by
  obtain ⟨hlook, turns, hturns⟩ | ⟨hlook, hidle, turns, hturns⟩ := h
  · exact .step_rests hturns hlook move
  · exact .step_between hturns hlook hidle move

theorem InTurns.stepAll (h : p.InTurns q) (moves : List Move) : p.InTurns (q.stepAll moves) := by
  induction moves generalizing q with
  | nil => exact h
  | cons move moves ih => exact ih (h.step move)

/-- **A run on two threads comes to what a run in turns comes to**, as soon as the worker has come
to its second look. -/
theorem exists_turns (h : p.letThrough = false) (moves : List Move) :
    ∃ turns, p.turnAll turns = (p.stepAll moves).step .receive := by
  have hstart : p.InTurns p := .inl ⟨h, [], rfl⟩
  have hlast : ((p.stepAll moves).step .receive).letThrough = false := by
    simp only [step]
    split <;> simp_all
  obtain ⟨-, hturns⟩ | ⟨hlook, -⟩ := (hstart.stepAll moves).step .receive
  · exact hturns
  · rw [hlast] at hlook
    cases hlook

end Pickup

end Informer
