import Informer.Entry
import Informer.Proofs.FanoutRun
import Informer.Proofs.History

/-!
# Every callback follows the store

Everything that can happen to the entry of a kind before the stop signal, in any order: changes,
full listings, resyncs, registrations, and the steps of the workers.

To the callbacks such a run is a run of the fan-out (`map_act`), in which the store decides what is
dispatched and what a new callback catches up with. What the store reports leads from contents to
contents (`leads_reported`), and what it replays leads to them from nothing, so whatever a callback
is given and is still to be given is a history of the store from the empty one to the present
(`notifications_follow_store`).
-/

namespace Informer.Entry

open Notification (Leads History carryAll)

/-- What can happen to the entry of a kind before the stop signal. -/
inductive Action where
  | apply (change : Change)
  | replace (listed : List Object)
  | resync
  | register (name : String)
  /-- The worker of a callback runs while it is idle. -/
  | advance (id : Nat)
  /-- The handling that a callback is busy with ends. -/
  | complete (id : Nat) (outcome : Outcome)
deriving DecidableEq

/-- The session of the callbacks alone. -/
def fanoutSession (s : Session Entry) : Session Fanout := s.map (·.callbacks)

/-- Something that happens to the callbacks alone. -/
def onCallbacks (s : Session Entry) (a : Fanout.Action) : Session Entry :=
  (Fanout.act (fanoutSession s) a).map fun callbacks ↦ { s.state with callbacks }

/-- One action. -/
def act (s : Session Entry) : Action → Session Entry
  | .apply change => s.record (s.state.apply change)
  | .replace listed => s.record (s.state.replace listed)
  | .resync => s.record s.state.resync
  | .register name =>
    { s.record (s.state.register s.nextCallback name) with nextCallback := s.nextCallback + 1 }
  | .advance id => onCallbacks s (.advance id)
  | .complete id outcome => onCallbacks s (.complete id outcome)

/-- Some actions, one after another. -/
def actAll (s : Session Entry) (actions : List Action) : Session Entry := actions.foldl act s

/-- The entry of a kind before anything happened. -/
def blank (kind : Kind) (backlog? : Option Nat) : Session Entry := { state := .empty kind backlog? }

@[simp] theorem actAll_nil (s : Session Entry) : actAll s [] = s := rfl

@[simp] theorem actAll_cons (s : Session Entry) (a : Action) (actions : List Action) :
    actAll s (a :: actions) = actAll (act s a) actions :=
  rfl

@[simp] theorem actAll_append (s : Session Entry) (before after : List Action) :
    actAll s (before ++ after) = actAll (actAll s before) after :=
  List.foldl_append

/-! ### What the callbacks see of an action -/

/-- What the store reports about an action. -/
def reported (store : Store) : Action → List Notification
  | .apply change => [(store.apply change).2]
  | .replace listed => (store.replace listed).2
  | .resync => store.resync
  | _ => []

/-- What an action is to the callbacks. -/
def moves (store : Store) : Action → List Fanout.Action
  | .register name => [.register name store.replay]
  | .advance id => [.advance id]
  | .complete id outcome => [.complete id outcome]
  | a => (reported store a).map .dispatch

theorem actAll_dispatch (s : Session Fanout) (ns : List Notification) :
    Fanout.actAll s (ns.map .dispatch) = s.record (s.state.dispatchAll ns) := by
  induction ns generalizing s with
  | nil => simp [Fanout.dispatchAll, Session.record]
  | cons n ns ih =>
    rw [List.map_cons, Fanout.actAll_cons, ih]
    simp only [Fanout.act, Fanout.dispatchAll, Session.record, Effect.events_append,
      List.append_assoc]

/-- To the callbacks an action on the entry is a run of their own. -/
theorem map_act (s : Session Entry) (a : Action) :
    fanoutSession (act s a) = Fanout.actAll (fanoutSession s) (moves s.state.store a) := by
  cases a with
  | register name => rfl
  | advance id => rfl
  | complete id outcome => rfl
  | _ => exact (actAll_dispatch (fanoutSession s) _).symm

theorem dispatched_moves (store : Store) (a : Action) :
    Fanout.dispatched (moves store a) = reported store a := by
  have hmap : ∀ ns : List Notification, Fanout.dispatched (ns.map .dispatch) = ns := by
    intro ns
    induction ns with
    | nil => rfl
    | cons n ns ih => simp [Fanout.Action.sent, ih]
  cases a with
  | register name => rfl
  | advance id => rfl
  | complete id outcome => rfl
  | _ => exact hmap _

theorem stop_not_mem_moves (store : Store) (a : Action) : .stop ∉ moves store a := by
  cases a <;> simp [moves]

/-! ### What the store makes of an action -/

theorem keyed_act {s : Session Entry} (h : s.state.store.Keyed) (a : Action) :
    (act s a).state.store.Keyed := by
  cases a with
  | apply change => exact Store.Keyed.apply h change
  | replace listed => exact Store.Keyed.replace h listed
  | _ => exact h

/-- What is reported about an action leads from the contents before it to the contents after it. -/
theorem leads_reported {s : Session Entry} (h : s.state.store.Keyed) (a : Action) :
    Leads s.state.store.objects (reported s.state.store a) (act s a).state.store.objects := by
  cases a with
  | apply change => exact Store.leads_apply h change
  | replace listed => exact Store.leads_replace h listed
  | resync => exact Store.leads_resync h
  | _ => exact .refl _

/-! ### Whole runs -/

/-- What every run keeps: objects under their own keys, unused numbers, and running workers. -/
structure Regular (s : Session Entry) : Prop where
  keyed : s.state.store.Keyed
  fresh : Fanout.Fresh (fanoutSession s)
  awake : Fanout.Awake (fanoutSession s)

theorem regular_blank (kind : Kind) (backlog? : Option Nat) : Regular (blank kind backlog?) where
  keyed := Store.keyed_empty
  fresh := Fanout.fresh_blank kind backlog?
  awake := Fanout.awake_blank kind backlog?

theorem Regular.act {s : Session Entry} (h : Regular s) (a : Action) : Regular (act s a) where
  keyed := keyed_act h.keyed a
  fresh := by
    rw [map_act]
    exact h.fresh.actAll _
  awake := by
    rw [map_act]
    exact h.awake.actAll (stop_not_mem_moves _ a)

theorem Regular.actAll {s : Session Entry} (h : Regular s) (actions : List Action) :
    Regular (actAll s actions) := by
  induction actions generalizing s with
  | nil => exact h
  | cons a actions ih => exact ih (h.act a)

/-- A callback that follows the store goes on following it. -/
theorem leads_actAll {s : Session Entry} (h : Regular s) {id : Nat}
    (hid : (s.state.callbacks.channel? id).isSome)
    (hl : Leads ∅ (Fanout.sequence (fanoutSession s) id) s.state.store.objects)
    (actions : List Action) :
    Leads ∅ (Fanout.sequence (fanoutSession (actAll s actions)) id)
      (actAll s actions).state.store.objects := by
  induction actions generalizing s with
  | nil => exact hl
  | cons a actions ih =>
    have hid' : ((Entry.act s a).state.callbacks.channel? id).isSome := by
      have := Fanout.isSome_channel?_actAll (s := fanoutSession s) hid (moves s.state.store a)
      rwa [← map_act] at this
    -- what the store reports goes on from where the share of the callback led
    refine ih (h.act a) hid' ?_
    rw [map_act, Fanout.sequence_actAll h.awake hid (stop_not_mem_moves _ a), dispatched_moves]
    exact hl.append (leads_reported h.keyed a)

/-- A callback that was just registered catches up with the store. -/
theorem leads_register {s : Session Entry} (h : Regular s) (name : String) :
    ((act s (.register name)).state.callbacks.channel? s.nextCallback).isSome ∧
      Leads ∅ (Fanout.sequence (fanoutSession (act s (.register name))) s.nextCallback)
        s.state.store.objects := by
  constructor
  · show ((Fanout.act (fanoutSession s) (.register name s.state.store.replay)).state.channel?
      s.nextCallback).isSome
    exact Fanout.isSome_register (fanoutSession s) name s.state.store.replay
  · rw [map_act]
    exact (Fanout.sequence_register h.fresh name _).symm ▸ Store.leads_replay h.keyed

/-- What a callback was given and is still to be given leads from nothing to the contents. -/
theorem leads_sequence (kind : Kind) (backlog? : Option Nat) (before after : List Action)
    (name : String) :
    let s := actAll (blank kind backlog?) (before ++ .register name :: after)
    Leads ∅ (Fanout.sequence (fanoutSession s) (actAll (blank kind backlog?) before).nextCallback)
      s.state.store.objects := by
  have hregular := (regular_blank kind backlog?).actAll before
  obtain ⟨hid, hreplay⟩ := leads_register hregular name
  intro s
  simp only [s, actAll_append, actAll_cons]
  exact leads_actAll (hregular.act (.register name)) hid hreplay after

/-- **Every callback follows the store.** Over every run of an entry before the stop signal, and for
every callback registered at any point of it, take what the callback was given and after it what
waits for it. Each of these notifications fits the contents that the ones before it lead to, from
nothing on, and all of them lead to what the store holds. -/
theorem notifications_follow_store (kind : Kind) (backlog? : Option Nat)
    (before after : List Action) (name : String) :
    let id := (actAll (blank kind backlog?) before).nextCallback
    let s := actAll (blank kind backlog?) (before ++ .register name :: after)
    let ns := s.handedTo id ++ s.state.callbacks.queueOf id
    (∀ seen n rest, ns = seen ++ n :: rest → n.Fits (carryAll ∅ seen)) ∧
      carryAll ∅ ns = s.state.store.objects := by
  intro id s ns
  have hleads : Leads ∅ ns s.state.store.objects := leads_sequence kind backlog? before after name
  refine ⟨fun seen n rest hns ↦ ?_, hleads.carryAll_eq⟩
  have hhistory := hleads.history
  rw [hns, Notification.history_append] at hhistory
  exact hhistory.2.1

end Informer.Entry
