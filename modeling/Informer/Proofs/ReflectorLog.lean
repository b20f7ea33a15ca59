import Mathlib.Data.List.Chain
import Mathlib.Data.List.Count
import Informer.Proofs.LoopEnd
import Informer.Proofs.Session

/-!
# What a loop hears and what it tells

A loop talks with the remote side: it calls, and it hears the answers and what a watch yields. The
record of a run holds both, what the loop took in and all effects that it had. Between its steps
other tasks may change the callbacks of the entry in any way.

What the loop tells is a function of what it hears, signal by signal (`Signal.tells`), and so are
the store (`Signal.absorb`) and the flag of the first listing. `Entry.Taken` is the law of one step,
and `tells_what_it_hears` the law of a run until the stop signal. Reports of backlogs, of first
listings and of resyncs are left out of what a loop tells; they are effects of it all the same.
-/

namespace Informer

/-! ### What a signal means -/

namespace Signal

/-- The objects among payloads. -/
def objects (payloads : List Json) : List Object :=
  payloads.filterMap fun p ↦ (Object.ofPayload p).toOption

/-- The reports of payloads that are no objects. -/
def drops (kind : Kind) (payloads : List Json) : List RuntimeEvent :=
  payloads.filterMap fun p ↦ match Object.ofPayload p with
    | .ok _ => none
    | .error cause => some (.payloadDropped kind cause.message)

/-- What the loop reports when it takes in a signal. -/
def reports (kind : Kind) : Signal → List RuntimeEvent
  | listed (.ok l) => drops kind l.payloads
  | listed (.error cause) => [.listFailed kind cause.message]
  | opened (.error cause) => [.watchFailed kind cause.message]
  | delivered (.mutation m) => drops kind [m.payload]
  | delivered (.failure cause) => [.watchFailed kind cause.message]
  | closed => [.watchClosed kind]
  | _ => []

/-- The calls that the loop makes when it takes in a signal. -/
def calls : Signal → List Call
  | started | rested => [.list]
  | listed (.ok l) => [.watch l.version?]
  | _ => []

/-- All that the loop tells when it takes in a signal. -/
def tells (kind : Kind) (signal : Signal) : List Effect :=
  (signal.reports kind).map .publish ++ signal.calls.map (.call kind)

/-- What becomes of the store when the loop takes in a signal. -/
def absorb (store : Store) : Signal → Store
  | listed (.ok l) => (store.replace (objects l.payloads)).1
  | delivered (.mutation m) => match Entry.changeOf m with
    | .ok change => (store.apply change).1
    | .error _ => store
  | _ => store

/-- Whether a signal is a listing. -/
def isListing : Signal → Bool
  | listed (.ok _) => true
  | _ => false

/-- Whether a signal ends a cycle: a call failed, or the watch failed or ended. -/
def breaks : Signal → Bool
  | listed (.error _) | opened (.error _) | delivered (.failure _) | closed => true
  | _ => false

/-- The stream that a signal brings. -/
def stream? : Signal → Option Nat
  | opened (.ok stream) => some stream
  | _ => none

/-- Where a signal leaves the loop. -/
inductive Leaves : Signal → Reflector → Prop where
  | started : Leaves .started .listing
  | rested : Leaves .rested .listing
  | listed (l : Listing) : Leaves (.listed (.ok l)) .opening
  | opened (stream : Nat) (tick? : Option Nat) :
    Leaves (.opened (.ok stream)) (.following stream tick?)
  | mutation (m : Mutation) (stream : Nat) (tick? : Option Nat) :
    Leaves (.delivered (.mutation m)) (.following stream tick?)
  | ticked (stream : Nat) (tick? : Option Nat) : Leaves .ticked (.following stream tick?)
  | breaks {signal : Signal} (h : signal.breaks = true) (till : Nat) : Leaves signal (.pausing till)

/-- Which signal can come after another one. -/
def Precedes (signal next : Signal) : Prop := ∃ r, signal.Leaves r ∧ r.Awaits next

end Signal

namespace Effect

/-- Whether an effect is part of what a loop tells. -/
def isTold : Effect → Bool
  | call _ _ => true
  | publish e => [.listFailed, .watchFailed, .watchClosed, .notificationDropped].contains e.topic
  | _ => false

/-- The stream that an effect lets go of. -/
def released? : Effect → Option Nat
  | release stream => some stream
  | _ => none

@[simp] theorem isTold_call (kind : Kind) (c : Call) : (call kind c).isTold = true := rfl

@[simp] theorem isTold_release (stream : Nat) : (release stream).isTold = false := rfl

@[simp] theorem released?_call (kind : Kind) (c : Call) : (call kind c).released? = none := rfl

@[simp] theorem released?_publish (e : RuntimeEvent) : (publish e).released? = none := rfl

@[simp] theorem released?_release (stream : Nat) : (release stream).released? = some stream := rfl

end Effect

/-! ### One step -/

namespace Fanout

/-- What queueing notifications has an effect on. -/
theorem mem_dispatchAll {f : Fanout} {ns : List Notification} {x : Effect}
    (h : x ∈ (f.dispatchAll ns).2) : x.isTold = false ∧ x.released? = none := by
  induction ns generalizing f with
  | nil => cases h
  | cons n ns ih =>
    rcases List.mem_append.1 h with h | h
    · cases x with
      | publish e =>
        have htopic : e.topic = .callbackBacklog :=
          topic_of_mem_dispatch (n := n) (List.mem_filterMap.2 ⟨.publish e, h, rfl⟩)
        exact ⟨by simp [Effect.isTold, htopic], rfl⟩
      | wake task => exact ⟨rfl, rfl⟩
      | call kind call =>
        obtain ⟨c, -, hc⟩ := List.mem_flatMap.1 h
        unfold pushEffects warning at hc
        grind
      | release stream =>
        obtain ⟨c, -, hc⟩ := List.mem_flatMap.1 h
        unfold pushEffects warning at hc
        grind
    · exact ih h

theorem filter_dispatchAll (f : Fanout) (ns : List Notification) :
    (f.dispatchAll ns).2.filter (·.isTold) = [] ∧
      (f.dispatchAll ns).2.filterMap (·.released?) = [] :=
  ⟨List.filter_eq_nil_iff.2 fun _ hx ↦ by simp [(mem_dispatchAll hx).1],
    List.filterMap_eq_nil_iff.2 fun _ hx ↦ (mem_dispatchAll hx).2⟩

end Fanout

namespace Entry

theorem readPayloads_eq (kind : Kind) (payloads : List Json) :
    readPayloads kind payloads =
      (Signal.objects payloads, (Signal.drops kind payloads).map .publish) := by
  induction payloads with
  | nil => rfl
  | cons p rest ih =>
    simp only [readPayloads, ih, Signal.objects, Signal.drops, List.filterMap_cons]
    cases Object.ofPayload p <;> rfl

/-- What a loop makes of a signal that it waits for. -/
structure Taken (e : Entry) (signal : Signal) (result : Entry × List Effect) : Prop where
  kind : result.1.kind = e.kind
  store : result.1.store = signal.absorb e.store
  synced : result.1.synced = (e.synced || signal.isListing)
  leaves : signal.Leaves result.1.reflector
  told : result.2.filter (·.isTold) = signal.tells e.kind
  streams : e.reflector.stream?.toList ++ signal.stream?.toList =
    result.2.filterMap (·.released?) ++ result.1.reflector.stream?.toList

variable {e : Entry} {pace : Pace} {now : Nat} {signal : Signal}

/-- Reports of payloads are told, and nothing is let go of. -/
theorem filter_drops (kind : Kind) (payloads : List Json) :
    ((Signal.drops kind payloads).map Effect.publish).filter (·.isTold) =
        (Signal.drops kind payloads).map .publish ∧
      ((Signal.drops kind payloads).map Effect.publish).filterMap (·.released?) = [] := by
  refine ⟨List.filter_eq_self.2 fun x hx ↦ ?_, List.filterMap_eq_nil_iff.2 fun x hx ↦ ?_⟩
  · obtain ⟨report, hreport, rfl⟩ := List.mem_map.1 hx
    obtain ⟨p, -, hp⟩ := List.mem_filterMap.1 hreport
    split at hp
    · cases hp
    · obtain rfl := Option.some.inj hp
      rfl
  · obtain ⟨report, -, rfl⟩ := List.mem_map.1 hx
    rfl

/-- A failure is reported, and a stream is let go of. -/
theorem taken_pause {report : RuntimeEvent} (hbreaks : signal.breaks = true)
    (htold : (Effect.publish report).isTold = true)
    (htells : signal.tells e.kind = [.publish report]) :
    e.Taken signal (e.pause pace now report) := by
  have habsorb : signal.absorb e.store = e.store ∧ signal.isListing = false ∧
      signal.stream? = none := by
    unfold Signal.breaks at hbreaks
    split at hbreaks <;> first | exact ⟨rfl, rfl, rfl⟩ | cases hbreaks
  obtain ⟨hstore, hlisting, hstream⟩ := habsorb
  refine ⟨rfl, hstore.symm, by rw [hlisting, Bool.or_false]; rfl, .breaks hbreaks _, ?_, ?_⟩
  · rw [htells]
    cases hr : e.reflector.stream? <;> simp [pause, hr, htold]
  · rw [hstream]
    have hpausing : (e.pause pace now report).1.reflector.stream? = none := rfl
    rw [hpausing]
    cases hr : e.reflector.stream? <;> simp [pause, hr]

theorem taken_takeListing (h : e.reflector = .listing) (l : Listing) :
    e.Taken (.listed (.ok l)) (e.takeListing l) := by
  obtain ⟨hdrops, hkept⟩ := filter_drops e.kind l.payloads
  obtain ⟨hqueued, hheld⟩ := e.callbacks.filter_dispatchAll
    (e.store.replace (Signal.objects l.payloads)).2
  have huntold : ∀ count, (Effect.publish (.cacheSynced e.kind count)).isTold = false := fun _ ↦ rfl
  refine ⟨rfl, ?_, by simp [takeListing, Signal.isListing], .listed l, ?_, ?_⟩
  · rw [takeListing, readPayloads_eq]
    rfl
  · cases hs : e.synced <;>
      simp [takeListing, readPayloads_eq, replace, report, withCallbacks, hdrops, hqueued, hs,
        huntold, Signal.tells, Signal.reports, Signal.calls]
  · cases hs : e.synced <;>
      simp [takeListing, readPayloads_eq, replace, report, withCallbacks, hkept, hheld, hs, h,
        Reflector.stream?, Signal.stream?]

/-- A mutation stands for a change, or its payload is reported. -/
theorem drops_payload (kind : Kind) (m : Mutation) :
    Signal.drops kind [m.payload] = match changeOf m with
      | .ok _ => []
      | .error cause => [.payloadDropped kind cause.message] := by
  cases m <;>
    simp only [Signal.drops, changeOf, Mutation.payload, List.filterMap_cons,
      List.filterMap_nil] <;>
    cases Object.ofPayload _ <;> rfl

theorem taken_takeMutation {stream : Nat} {tick? : Option Nat}
    (h : e.reflector = .following stream tick?) (m : Mutation) :
    e.Taken (.delivered (.mutation m)) (e.takeMutation m) := by
  have hleaves : Signal.Leaves (.delivered (.mutation m)) (e.takeMutation m).1.reflector := by
    rw [reflector_takeMutation, h]
    exact .mutation m stream tick?
  have hstream : (e.takeMutation m).1.reflector.stream? = some stream := by
    rw [reflector_takeMutation, h]
    rfl
  have hfollowing : e.reflector.stream? = some stream := by rw [h]; rfl
  cases hchange : changeOf m with
  | ok change =>
    obtain ⟨hqueued, hheld⟩ := e.callbacks.filter_dispatchAll [(e.store.apply change).2]
    have htake : e.takeMutation m = e.apply change := by simp [takeMutation, hchange]
    have hnone : Signal.drops e.kind [m.payload] = [] := by rw [drops_payload, hchange]
    refine ⟨by rw [htake]; rfl, ?_, ?_, hleaves, ?_, ?_⟩
    · simp only [htake, Signal.absorb, hchange]
      rfl
    · rw [htake]
      exact (Bool.or_false _).symm
    · rw [htake]
      simp [apply, report, withCallbacks, hqueued, Signal.tells, Signal.reports, Signal.calls,
        hnone]
    · rw [hstream, hfollowing, htake]
      simp [apply, report, withCallbacks, hheld, Signal.stream?]
  | error cause =>
    have htake : e.takeMutation m =
        (e, [.publish (.payloadDropped e.kind cause.message)]) := by
      simp [takeMutation, hchange]
    have hone : Signal.drops e.kind [m.payload] = [.payloadDropped e.kind cause.message] := by
      rw [drops_payload, hchange]
    have htold : (Effect.publish (.payloadDropped e.kind cause.message)).isTold = true := rfl
    refine ⟨by rw [htake], ?_, ?_, hleaves, ?_, ?_⟩
    · simp only [htake, Signal.absorb, hchange]
    · rw [htake]
      exact (Bool.or_false _).symm
    · rw [htake]
      simp [Signal.tells, Signal.reports, Signal.calls, hone, htold]
    · rw [hstream, hfollowing, htake]
      simp [Signal.stream?]

theorem taken_takeTick {stream tick : Nat} (h : e.reflector = .following stream (some tick))
    (period : Nat) : e.Taken .ticked (e.takeTick stream tick period) := by
  obtain ⟨hqueued, hheld⟩ := e.callbacks.filter_dispatchAll e.store.resync
  refine ⟨rfl, rfl, by simp [takeTick, resync, report, withCallbacks, Signal.isListing],
    .ticked stream _, ?_, ?_⟩
  · have huntold : (Effect.publish (.resynced e.kind e.store.resync.length)).isTold = false := rfl
    simp [takeTick, resync, report, withCallbacks, hqueued, huntold, Signal.tells,
      Signal.reports, Signal.calls]
  · simp [takeTick, resync, report, withCallbacks, hheld, h, Reflector.stream?, Signal.stream?]

theorem taken_list (h : e.reflector.stream? = none) (hstream : signal.stream? = none)
    (hlisting : signal.isListing = false) (habsorb : signal.absorb e.store = e.store)
    (hleaves : signal.Leaves .listing) (htells : signal.tells e.kind = [.call e.kind .list]) :
    e.Taken signal e.list := by
  refine ⟨rfl, habsorb.symm, by rw [hlisting, Bool.or_false]; rfl, hleaves, ?_, ?_⟩
  · rw [htells]
    rfl
  · rw [h, hstream]
    rfl

/-- **One step of the loop**: what it makes of a signal that it waits for. -/
theorem taken_react (h : e.reflector.Awaits signal) : e.Taken signal (e.react pace now signal) := by
  generalize hr : e.reflector = r at h
  cases h with
  | started =>
    have hreact : e.react pace now .started = e.list := by simp [react, hr]
    exact hreact ▸ taken_list (by rw [hr]; rfl) rfl rfl rfl .started rfl
  | rested till =>
    have hreact : e.react pace now .rested = e.list := by simp [react, hr]
    exact hreact ▸ taken_list (by rw [hr]; rfl) rfl rfl rfl .rested rfl
  | listed result =>
    cases result with
    | ok l =>
      have hreact : e.react pace now (.listed (.ok l)) = e.takeListing l := by simp [react, hr]
      exact hreact ▸ taken_takeListing hr l
    | error cause =>
      have hreact : e.react pace now (.listed (.error cause)) =
          e.pause pace now (.listFailed e.kind cause.message) := by
        simp [react, hr]
      exact hreact ▸ taken_pause rfl rfl rfl
  | opened result =>
    cases result with
    | ok stream =>
      have hreact : e.react pace now (.opened (.ok stream)) =
          ({ e with reflector := .following stream (pace.resync?.map (now + ·)) }, []) := by
        simp [react, hr]
      rw [hreact]
      exact ⟨rfl, rfl, (Bool.or_false _).symm, .opened stream _, rfl, by rw [hr]; rfl⟩
    | error cause =>
      have hreact : e.react pace now (.opened (.error cause)) =
          e.pause pace now (.watchFailed e.kind cause.message) := by
        simp [react, hr]
      exact hreact ▸ taken_pause rfl rfl rfl
  | delivered stream tick? d =>
    cases d with
    | mutation m =>
      have hreact : e.react pace now (.delivered (.mutation m)) = e.takeMutation m := by
        simp [react, hr]
      exact hreact ▸ taken_takeMutation hr m
    | failure cause =>
      have hreact : e.react pace now (.delivered (.failure cause)) =
          e.pause pace now (.watchFailed e.kind cause.message) := by
        simp [react, hr]
      exact hreact ▸ taken_pause rfl rfl rfl
  | closed stream tick? =>
    have hreact : e.react pace now .closed = e.pause pace now (.watchClosed e.kind) := by
      simp [react, hr]
    exact hreact ▸ taken_pause rfl rfl rfl
  | ticked stream tick =>
    cases hp : pace.resync? with
    | some period =>
      have hreact : e.react pace now .ticked = e.takeTick stream tick period := by
        simp [react, hr, hp]
      exact hreact ▸ taken_takeTick hr period
    | none =>
      have hreact : e.react pace now .ticked = (e, []) := by simp [react, hr, hp]
      rw [hreact]
      refine ⟨rfl, rfl, (Bool.or_false _).symm, ?_, rfl, List.append_nil _⟩
      rw [hr]
      exact .ticked stream _

/-- A signal that the loop does not wait for changes nothing. -/
theorem react_of_not_awaits (hstop : signal ≠ .stopped) (h : ¬ e.reflector.Awaits signal) :
    e.react pace now signal = (e, []) := by
  unfold react
  split
  · rfl
  · exact absurd rfl hstop
  · next hr => exact absurd (hr ▸ .started) h
  · next till hr => exact absurd (hr ▸ .rested till) h
  · next l hr => exact absurd (hr ▸ .listed _) h
  · next cause hr => exact absurd (hr ▸ .listed _) h
  · next stream hr => exact absurd (hr ▸ .opened _) h
  · next cause hr => exact absurd (hr ▸ .opened _) h
  · next stream tick? m hr => exact absurd (hr ▸ .delivered stream tick? _) h
  · next stream tick? cause hr => exact absurd (hr ▸ .delivered stream tick? _) h
  · next stream tick? hr => exact absurd (hr ▸ .closed stream tick?) h
  · next stream tick hr => exact absurd (hr ▸ .ticked stream tick) h
  · rfl

end Entry

/-! ### Runs -/

/-- Whether a loop waits for a signal. -/
def Reflector.hears : Reflector → Signal → Bool
  | fresh, .started | pausing _, .rested | listing, .listed _ | opening, .opened _ => true
  | following _ _, .delivered _ | following _ _, .closed | following _ (some _), .ticked => true
  | _, _ => false

theorem Reflector.hears_iff {r : Reflector} {signal : Signal} :
    r.hears signal = true ↔ r.Awaits signal := by
  constructor
  · intro h
    unfold hears at h
    split at h <;> first | constructor | cases h
  · intro h
    cases h <;> rfl

/-- The entry of a kind with the record of what its loop heard and of the effects that it had. -/
structure Conversation where
  entry : Entry
  heard : List Signal := []
  effects : List Effect := []

namespace Conversation

/-- What can happen to an entry. -/
inductive Action where
  /-- The loop takes in a signal, if it waits for it. -/
  | take (now : Nat) (signal : Signal)
  /-- Other tasks change the callbacks. -/
  | others (callbacks : Fanout)

/-- The loop of a kind that has not run yet. -/
def start (kind : Kind) (backlog? : Option Nat) : Conversation where
  entry := .empty kind backlog?

variable (pace : Pace) (s : Conversation)

/-- One action. -/
def act : Action → Conversation
  | .take now signal =>
    let (entry, effects) := s.entry.react pace now signal
    { entry
      heard := if s.entry.reflector.hears signal then s.heard ++ [signal] else s.heard
      effects := s.effects ++ effects }
  | .others callbacks => { s with entry := { s.entry with callbacks } }

/-- Some actions, one after another. -/
def actAll (actions : List Action) : Conversation := actions.foldl (act pace) s

/-- Whether an action gives the stop signal. -/
def Action.isStop : Action → Bool
  | .take _ .stopped => true
  | _ => false

/-- Whether the loop pauses. -/
def pauses : Reflector → Bool
  | .pausing _ => true
  | _ => false

/-- A list call ends a pause, or it is the first; a failure begins a pause. -/
theorem count_list_of_awaits {r r' : Reflector} {signal : Signal} (hawaits : r.Awaits signal)
    (hleaves : signal.Leaves r') :
    signal.calls.count .list + (pauses r').toNat =
      signal.breaks.toNat + (pauses r).toNat + if r = .fresh then 1 else 0 := by
  cases hleaves with
  | breaks hbreaks till =>
    have hcalls : signal.calls = [] := by
      unfold Signal.breaks at hbreaks
      split at hbreaks <;> first | rfl | cases hbreaks
    rw [hcalls, hbreaks]
    cases hawaits <;> first | rfl | cases hbreaks
  | _ =>
    cases hawaits
    all_goals simp [Signal.calls, Signal.breaks, pauses]

/-- What holds of the loop of a kind at any time before the stop signal. -/
structure Sound (kind : Kind) (s : Conversation) : Prop where
  own : s.entry.kind = kind
  stands : match s.heard.getLast? with
    | none => s.entry.reflector = .fresh
    | some signal => signal.Leaves s.entry.reflector
  chain : s.heard.IsChain Signal.Precedes
  first : ∀ signal ∈ s.heard.head?, signal = .started
  told : s.effects.filter (·.isTold) = s.heard.flatMap (·.tells kind)
  store : s.entry.store = s.heard.foldl Signal.absorb {}
  synced : s.entry.synced = s.heard.any (·.isListing)
  streams : s.heard.filterMap (·.stream?) =
    s.effects.filterMap (·.released?) ++ s.entry.reflector.stream?.toList
  counted : (s.heard.flatMap (·.calls)).count .list + (pauses s.entry.reflector).toNat =
    s.heard.countP (·.breaks) + if s.heard = [] then 0 else 1

variable {pace} {s : Conversation} {kind : Kind}

theorem sound_start (kind : Kind) (backlog? : Option Nat) : (start kind backlog?).Sound kind :=
  ⟨rfl, rfl, .nil, nofun, rfl, rfl, rfl, rfl, rfl⟩

theorem Sound.hear (h : s.Sound kind) {signal : Signal} (hawaits : s.entry.reflector.Awaits signal)
    {result : Entry × List Effect} (htaken : s.entry.Taken signal result) :
    Sound kind ⟨result.1, s.heard ++ [signal], s.effects ++ result.2⟩ where
  own := htaken.kind.trans h.own
  stands := by
    rw [List.getLast?_concat]
    exact htaken.leaves
  chain := by
    refine List.isChain_append.2 ⟨h.chain, .singleton _, fun last hlast next hnext ↦ ?_⟩
    obtain rfl : signal = next := by simpa using hnext
    have hstands := h.stands
    rw [Option.mem_def.1 hlast] at hstands
    exact ⟨_, hstands, hawaits⟩
  first := by
    intro next hnext
    have hstands := h.stands
    cases hheard : s.heard with
    | nil =>
      rw [hheard] at hstands hnext
      have hfresh : s.entry.reflector = .fresh := hstands
      obtain rfl : signal = next := Option.some.inj hnext
      rw [hfresh] at hawaits
      cases hawaits
      rfl
    | cons first rest =>
      rw [hheard] at hnext
      exact h.first next (hheard ▸ hnext)
  told := by
    rw [List.filter_append, List.flatMap_append, h.told, htaken.told, h.own,
      List.flatMap_singleton]
  store := by rw [htaken.store, List.foldl_append, ← h.store]; rfl
  synced := by rw [htaken.synced, List.any_append, ← h.synced]; simp
  streams := by
    have hstreams := htaken.streams
    rw [List.filterMap_append, List.filterMap_append, h.streams, List.append_assoc,
      List.append_assoc, ← hstreams]
    cases hsome : signal.stream? <;> simp [hsome]
  counted := by
    have hstep := count_list_of_awaits hawaits htaken.leaves
    have hbefore := h.counted
    have hfresh : s.entry.reflector = .fresh ↔ s.heard = [] := by
      have hstands := h.stands
      cases hlast : s.heard.getLast? with
      | none =>
        rw [hlast] at hstands
        exact ⟨fun _ ↦ List.getLast?_eq_none_iff.1 hlast, fun _ ↦ hstands⟩
      | some last =>
        rw [hlast] at hstands
        refine ⟨fun hr ↦ ?_, fun hnil ↦ ?_⟩
        · rw [hr] at hstands
          cases hstands
        · rw [hnil] at hlast
          cases hlast
    rw [if_neg (List.concat_ne_nil _ _), List.flatMap_append, List.flatMap_singleton,
      List.count_append, List.countP_append, List.countP_singleton]
    simp only [hfresh] at hstep
    cases hbreaks : signal.breaks <;> by_cases hnil : s.heard = [] <;>
      simp only [hbreaks, hnil, if_true, if_false, Bool.toNat_true, Bool.toNat_false,
        Bool.false_eq_true] at hstep hbefore ⊢ <;> omega

theorem Sound.act (h : s.Sound kind) {a : Action} (ha : a.isStop = false) :
    (s.act pace a).Sound kind := by
  cases a with
  | others callbacks => exact { h with }
  | take now signal =>
    by_cases hhears : s.entry.reflector.hears signal = true
    · have hawaits := Reflector.hears_iff.1 hhears
      have hact : s.act pace (.take now signal) = ⟨(s.entry.react pace now signal).1,
          s.heard ++ [signal], s.effects ++ (s.entry.react pace now signal).2⟩ := by
        simp [Conversation.act, hhears]
      rw [hact]
      exact h.hear hawaits (Entry.taken_react hawaits)
    · have hstop : signal ≠ .stopped := by
        rintro rfl
        cases ha
      have hreact : s.entry.react pace now signal = (s.entry, []) :=
        Entry.react_of_not_awaits hstop fun hawaits ↦ hhears (Reflector.hears_iff.2 hawaits)
      have hact : s.act pace (.take now signal) = s := by
        simp [Conversation.act, hhears, hreact]
      rwa [hact]

theorem Sound.actAll (h : s.Sound kind) {actions : List Action}
    (ha : ∀ a ∈ actions, a.isStop = false) : (s.actAll pace actions).Sound kind := by
  induction actions generalizing s with
  | nil => exact h
  | cons a actions ih =>
    exact ih (h.act (ha a List.mem_cons_self)) fun b hb ↦ ha b (List.mem_cons_of_mem _ hb)

/-! ### The order of a conversation -/

/-- After a failure the loop pauses, and what it hears next is that the pause is over. -/
theorem rested_of_breaks {signal next : Signal} (hbreaks : signal.breaks = true)
    (h : signal.Precedes next) : next = .rested := by
  obtain ⟨r, hleaves, hawaits⟩ := h
  cases hleaves with
  | breaks _ till =>
    cases hawaits
    rfl
  | _ => cases hbreaks

/-- From the answer to a list call on, no call comes before a pause is over. -/
theorem call_of_precedes {signal next : Signal} (hstarted : signal ≠ .started)
    (hrested : signal ≠ .rested) (h : signal.Precedes next) :
    next = .rested ∨ (next.calls = [] ∧ next ≠ .started ∧ next ≠ .rested) := by
  obtain ⟨r, hleaves, hawaits⟩ := h
  cases hleaves with
  | started => exact absurd rfl hstarted
  | rested => exact absurd rfl hrested
  | breaks hbreaks till =>
    cases hawaits
    exact .inl rfl
  | listed l =>
    cases hawaits
    exact .inr ⟨rfl, nofun, nofun⟩
  | _ =>
    cases hawaits <;> exact .inr ⟨rfl, nofun, nofun⟩

/-- The next call after any answer, failure or delivery is a list call. -/
theorem list_of_head?_calls {signal : Signal} {after : List Signal} (hstarted : signal ≠ .started)
    (hrested : signal ≠ .rested) (h : (signal :: after).IsChain Signal.Precedes) :
    ∀ call ∈ (after.flatMap (·.calls)).head?, call = .list := by
  induction after generalizing signal with
  | nil => nofun
  | cons next after ih =>
    obtain ⟨hprecedes, hrest⟩ := List.isChain_cons_cons.1 h
    obtain rfl | ⟨hnone, hstarted', hrested'⟩ := call_of_precedes hstarted hrested hprecedes
    · intro call hcall
      exact (Option.some.inj hcall).symm
    · rw [List.flatMap_cons, hnone, List.nil_append]
      exact ih hstarted' hrested' hrest

/-! ### The law of a run -/

/-- Whether an effect reports that a call failed, or that a watch failed or ended. -/
def endsCycle : Effect → Bool
  | .publish e => [.listFailed, .watchFailed, .watchClosed].contains e.topic
  | _ => false

theorem countP_drops (kind : Kind) (payloads : List Json) :
    ((Signal.drops kind payloads).map Effect.publish).countP endsCycle = 0 := by
  refine List.countP_eq_zero.2 fun x hx ↦ ?_
  obtain ⟨report, hreport, rfl⟩ := List.mem_map.1 hx
  obtain ⟨p, -, hp⟩ := List.mem_filterMap.1 hreport
  split at hp
  · cases hp
  · obtain rfl := Option.some.inj hp
    exact (by decide : ¬ false = true)

theorem countP_tells (kind : Kind) (signal : Signal) :
    (signal.tells kind).countP endsCycle = signal.breaks.toNat := by
  have hcalls : (signal.calls.map (Effect.call kind)).countP endsCycle = 0 := by
    refine List.countP_eq_zero.2 fun x hx ↦ ?_
    obtain ⟨call, -, rfl⟩ := List.mem_map.1 hx
    exact Bool.false_ne_true
  rw [Signal.tells, List.countP_append, hcalls, Nat.add_zero]
  unfold Signal.reports
  split
  · exact countP_drops kind _
  · rfl
  · rfl
  · exact countP_drops kind _
  · rfl
  · rfl
  · unfold Signal.breaks
    split <;> simp_all

/-- The reports of failures and ends, and the list calls, as they are among all effects. -/
theorem Sound.counts (h : s.Sound kind) :
    s.effects.countP endsCycle = s.heard.countP (·.breaks) ∧
      s.effects.count (.call kind .list) = (s.heard.flatMap (·.calls)).count .list := by
  constructor
  · have hfilter : s.effects.countP endsCycle =
        (s.effects.filter (·.isTold)).countP endsCycle := by
      rw [List.countP_filter]
      refine List.countP_congr fun x _ ↦ ?_
      cases x
      all_goals simp [endsCycle, Effect.isTold]
      grind
    rw [hfilter, h.told]
    induction s.heard with
    | nil => rfl
    | cons signal heard ih =>
      rw [List.flatMap_cons, List.countP_append, ih, countP_tells, List.countP_cons]
      cases signal.breaks <;> simp [Nat.add_comm]
  · rw [← List.count_filter (p := (·.isTold)) (by rfl), h.told]
    induction s.heard with
    | nil => rfl
    | cons signal heard ih =>
      have hone : (signal.tells kind).count (.call kind .list) = signal.calls.count .list := by
        rw [Signal.tells, List.count_append, List.count_eq_zero.2 (by simp), Nat.zero_add]
        exact List.count_map_of_injective _ _ (fun _ _ heq ↦ (Effect.call.inj heq).2) _
      rw [List.flatMap_cons, List.flatMap_cons, List.count_append, List.count_append, ih, hone]

theorem absorb_of_breaks {signal : Signal} (h : signal.breaks = true) :
    signal.isListing = false ∧ ∀ store : Store, signal.absorb store = store := by
  unfold Signal.breaks at h
  split at h <;> first | exact ⟨rfl, fun _ ↦ rfl⟩ | cases h

/-- **The loop tells all that it hears, and nothing else.** Whatever the remote side answers and
whatever its watches yield, until the stop signal: the calls and reports of the loop are those of
what it heard, in order, and the store is what the listings and changes that it heard make of an
empty one. A failure changes neither the store nor the flag of the first listing; after it the loop
hears that its pause is over, and lists. From the answer to a list call on, but for the watch call
that a listing brings, the next call is a list call. There is one more list call than there are
reports of failures and ends, but for a pause that is not over, and of the streams that were opened
all are let go of but the one that the loop reads. -/
theorem tells_what_it_hears (pace : Pace) (kind : Kind) (backlog? : Option Nat)
    (actions : List Action) (hrun : ∀ a ∈ actions, a.isStop = false) :
    let s := (start kind backlog?).actAll pace actions
    (∀ now signal, s.entry.reflector.Awaits signal →
      (s.act pace (.take now signal)).heard = s.heard ++ [signal]) ∧
    s.effects.filter (·.isTold) = s.heard.flatMap (·.tells kind) ∧
    s.entry.store = s.heard.foldl Signal.absorb {} ∧
    s.entry.synced = s.heard.any (·.isListing) ∧
    s.heard.IsChain Signal.Precedes ∧ (∀ signal ∈ s.heard.head?, signal = .started) ∧
    (∀ before signal after, s.heard = before ++ signal :: after → signal.breaks = true →
      (signal.isListing = false ∧ ∀ store : Store, signal.absorb store = store) ∧
      ∀ next ∈ after.head?, next = .rested) ∧
    (∀ before signal after, s.heard = before ++ signal :: after → signal ≠ .started →
      signal ≠ .rested → ∀ call ∈ (after.flatMap (·.calls)).head?, call = .list) ∧
    s.effects.count (.call kind .list) + (pauses s.entry.reflector).toNat =
      s.effects.countP endsCycle + (if s.heard = [] then 0 else 1) ∧
    s.heard.filterMap (·.stream?) =
      s.effects.filterMap (·.released?) ++ s.entry.reflector.stream?.toList := by
  intro s
  have h : s.Sound kind := (sound_start kind backlog?).actAll hrun
  have hsuffix : ∀ {before signal after}, s.heard = before ++ signal :: after →
      (signal :: after).IsChain Signal.Precedes := fun hsplit ↦
    (List.isChain_append.1 (hsplit ▸ h.chain)).2.1
  refine ⟨fun now signal hawaits ↦ ?_, h.told, h.store, h.synced, h.chain, h.first,
    fun before signal after hsplit hbreaks ↦ ⟨absorb_of_breaks hbreaks, fun next hnext ↦ ?_⟩,
    fun before signal after hsplit hstarted hrested ↦
      list_of_head?_calls hstarted hrested (hsuffix hsplit), ?_, h.streams⟩
  · simp [act, Reflector.hears_iff.2 hawaits]
  · rcases after with - | ⟨first, rest⟩
    · cases hnext
    · obtain rfl := Option.some.inj hnext
      exact rested_of_breaks hbreaks (List.isChain_cons_cons.1 (hsuffix hsplit)).1
  · rw [h.counts.1, h.counts.2]
    exact h.counted

/-- A loop whose first list call fails, and whose watch yields a payload without identity and
ends. -/
theorem tells_what_it_hears_of_failures :
    let actions : List Action := [.take 0 .started, .take 0 (.listed (.error (.other "down"))),
      .take 9 .rested, .take 9 (.listed (.ok ⟨[], some "3"⟩)), .take 9 (.opened (.ok 0)),
      .take 9 (.delivered (.mutation (.added .null))), .take 9 .closed]
    let s := (start ⟨"", "v1", "Node"⟩ none).actAll ⟨5, none⟩ actions
    (∀ a ∈ actions, a.isStop = false) ∧
      s.effects.filter (·.isTold) = [.call ⟨"", "v1", "Node"⟩ .list,
        .publish (.listFailed ⟨"", "v1", "Node"⟩ "transport error: down"),
        .call ⟨"", "v1", "Node"⟩ .list, .call ⟨"", "v1", "Node"⟩ (.watch (some "3")),
        .publish (.payloadDropped ⟨"", "v1", "Node"⟩
          (ObjectError.missingMetadata "field `metadata` is absent").message),
        .publish (.watchClosed ⟨"", "v1", "Node"⟩)] := by
  intro actions s
  have hrun : ∀ a ∈ actions, a.isStop = false := by decide
  exact ⟨hrun, (tells_what_it_hears _ _ _ _ hrun).2.1.trans (by rfl)⟩

end Conversation

end Informer
