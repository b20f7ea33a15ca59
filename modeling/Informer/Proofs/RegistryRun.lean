import Informer.Transport.Registry
import Mathlib.Data.List.Basic

/-!
# Runs of the registry

What any number of clients can ask of the registry, in any order, and what becomes of an open watch
meanwhile.

To the watches a request is one of few things (`perform_cases`): nothing at all, a commit, a break
of the watches of a kind, a new watch, or a step of the reader of some stream. A watch of a kind
that has yielded the recorded mutations `seen` holds the ones recorded after them, in their order,
and when it was broken only the first of these and then the error (`Feed`). Every request keeps that
(`Feed.perform`); the reader takes from the front (`Feed.read`).
-/

namespace Informer

/-! ### Streams -/

namespace Streams

theorem opened_foldl_modify (f : Stream → Stream) (numbers : List Nat) (s : Streams) :
    (numbers.foldl (fun s n ↦ s.modify n f) s).opened = s.opened := by
  induction numbers generalizing s with
  | nil => rfl
  | cons m numbers ih => exact ih (s.modify m f)

/-- Changing several streams changes each of them once, and no other. -/
theorem get_foldl_modify {numbers : List Nat} (h : numbers.Nodup) (f : Stream → Stream)
    (s : Streams) (n : Nat) :
    (numbers.foldl (fun s n ↦ s.modify n f) s).get n =
      if n ∈ numbers then f (s.get n) else s.get n := by
  induction numbers generalizing s with
  | nil => rfl
  | cons m numbers ih =>
    obtain ⟨hm, hnumbers⟩ := List.nodup_cons.1 h
    rw [List.foldl_cons, ih hnumbers]
    by_cases hn : n = m
    · subst hn
      simp [hm]
    · simp [hn, get_modify_of_ne hn]

theorem get_sendAll {numbers : List Nat} (h : numbers.Nodup) (d : Delivery) (s : Streams)
    (n : Nat) :
    (s.sendAll numbers d).get n = if n ∈ numbers then (s.get n).send d else s.get n :=
  get_foldl_modify h _ s n

theorem get_closeAll {numbers : List Nat} (h : numbers.Nodup) (s : Streams) (n : Nat) :
    (s.closeAll numbers).get n =
      if n ∈ numbers then { s.get n with sending := false } else s.get n :=
  get_foldl_modify h _ s n

@[simp] theorem opened_sendAll (s : Streams) (numbers : List Nat) (d : Delivery) :
    (s.sendAll numbers d).opened = s.opened :=
  opened_foldl_modify _ numbers s

@[simp] theorem opened_closeAll (s : Streams) (numbers : List Nat) :
    (s.closeAll numbers).opened = s.opened :=
  opened_foldl_modify _ numbers s

theorem get_openWith_self (s : Streams) (queue : List Delivery) :
    (s.openWith queue).get s.opened = { queue } := by
  simp [get, openWith]

theorem get_openWith_of_ne {s : Streams} {n : Nat} (h : n ≠ s.opened) (queue : List Delivery) :
    (s.openWith queue).get n = s.get n := by
  have hne : compare s.opened n ≠ .eq := by simpa using h.symm
  simp [get, openWith, Std.ExtTreeMap.getElem?_insert, hne]

/-- What leaves the sending side of a stream alone leaves that of every stream alone. -/
theorem sending_modify {f : Stream → Stream} (hf : ∀ s, (f s).sending = s.sending) (s : Streams)
    (m n : Nat) : ((s.modify m f).get n).sending = (s.get n).sending := by
  by_cases h : n = m
  · rw [h, get_modify_self, hf]
  · rw [get_modify_of_ne h]

theorem mem_live {s : Streams} {numbers : List Nat} {n : Nat} :
    n ∈ s.live numbers ↔ n ∈ numbers ∧ (s.get n).reading :=
  List.mem_filter

end Streams

namespace Registry

variable {r : Registry}

/-! ### Records of kinds -/

theorem record_modify (r : Registry) (kind : Kind) (f : KindRecord → KindRecord) (other : Kind) :
    (r.modify kind f).record other =
      if other = kind then f (r.record kind) else r.record other := by
  by_cases h : other = kind
  · subst h
    simp [modify, record]
  · have hne : compare kind other ≠ .eq := by simpa using Ne.symm h
    simp [modify, record, Std.ExtTreeMap.getElem?_insert, hne, h]

/-- The open watches of a kind that somebody reads. -/
def live (r : Registry) (kind : Kind) : List Nat := r.streams.live (r.record kind).watchers

theorem mem_live {kind : Kind} {n : Nat} :
    n ∈ r.live kind ↔ n ∈ (r.record kind).watchers ∧ (r.streams.get n).reading :=
  Streams.mem_live

theorem record_broadcast (r : Registry) (kind : Kind) (d : Delivery) (other : Kind) :
    (r.broadcast kind d).record other =
      if other = kind then { r.record kind with watchers := r.live kind } else r.record other :=
  record_modify r kind ({ · with watchers := r.live kind }) other

theorem streams_broadcast (r : Registry) (kind : Kind) (d : Delivery) :
    (r.broadcast kind d).streams = r.streams.sendAll (r.live kind) d :=
  rfl

/-- The records of all kinds after a mutation was recorded and before it is sent. -/
theorem record_write (r : Registry) (kind : Kind) (m : Mutation) (other : Kind) :
    record { r.modify kind fun k ↦ { k with history := k.history ++ [(r.lastVersion + 1, m)] } with
      lastVersion := r.lastVersion + 1 } other =
      if other = kind then { r.record kind with
        history := (r.record kind).history ++ [(r.lastVersion + 1, m)] } else r.record other :=
  record_modify r kind (fun k ↦ { k with history := k.history ++ [(r.lastVersion + 1, m)] }) other

/-- The records of all kinds after a commit. -/
theorem record_commit (r : Registry) (kind : Kind) (m : Mutation) (other : Kind) :
    (r.commit kind m).record other =
      if other = kind then
        { r.record kind with
          history := (r.record kind).history ++ [(r.lastVersion + 1, m)]
          watchers := r.live kind }
      else r.record other := by
  rw [commit, record_broadcast, live, record_write, record_write, if_pos rfl]
  split <;> rfl

theorem streams_commit (r : Registry) (kind : Kind) (m : Mutation) :
    (r.commit kind m).streams = r.streams.sendAll (r.live kind) (.mutation m) := by
  rw [commit, streams_broadcast, live, record_write, if_pos rfl]
  rfl

theorem lastVersion_commit (r : Registry) (kind : Kind) (m : Mutation) :
    (r.commit kind m).lastVersion = r.lastVersion + 1 :=
  rfl

/-- The records of all kinds after a break of the watches of one. -/
theorem record_breakWatches (r : Registry) (kind : Kind) (e : TransportError) (other : Kind) :
    (r.breakWatches kind e).record other =
      if other = kind then { r.record kind with watchers := [] } else r.record other := by
  have hrecord :=
    record_modify (r.broadcast kind (.failure e)) kind ({ · with watchers := [] }) other
  rw [record_broadcast, record_broadcast, if_pos rfl] at hrecord
  rw [breakWatches]
  refine hrecord.trans ?_
  split <;> rfl

/-- A break touches no object and no recorded mutation. -/
theorem kept_breakWatches (r : Registry) (kind : Kind) (e : TransportError) (other : Kind) :
    ((r.breakWatches kind e).record other).objects = (r.record other).objects ∧
      ((r.breakWatches kind e).record other).history = (r.record other).history := by
  rw [record_breakWatches]
  split
  · next h => simp only [h, and_self]
  · exact ⟨rfl, rfl⟩

theorem streams_breakWatches (r : Registry) (kind : Kind) (e : TransportError) :
    (r.breakWatches kind e).streams =
      (r.streams.sendAll (r.live kind) (.failure e)).closeAll (r.live kind) := by
  show (r.broadcast kind (.failure e)).streams.closeAll _ = _
  rw [record_broadcast, if_pos rfl, streams_broadcast]

/-- The registry after a new watch was opened, which was given some mutations to begin with. -/
def openWatch (r : Registry) (kind : Kind) (missed : List Mutation) : Registry :=
  { r.modify kind fun k ↦ { k with
      watchCalls := k.watchCalls + 1, watchers := k.watchers ++ [r.streams.opened] } with
    streams := r.streams.openWith (missed.map .mutation) }

/-- A watch call is refused and changes nothing, or it opens a watch. -/
theorem watch_cases (r : Registry) (kind : Kind) (version? : Option String) :
    (∃ e, r.watch kind version? = (r, .error e)) ∨
      ∃ missed, r.watch kind version? = (r.openWatch kind missed, .ok r.streams.opened) ∧
        ∀ text, version? = some text →
          ∃ v, parseVersion? text = some v ∧ missed = r.since kind v := by
  rcases version? with - | text
  · exact .inr ⟨[], rfl, fun _ h ↦ by cases h⟩
  · rcases hv : parseVersion? text with - | v
    · exact .inl ⟨.invalid ("resource version " ++ Text.quote text), by rw [watch]; simp only [hv]⟩
    · refine .inr ⟨r.since kind v, by rw [watch]; simp only [hv]; rfl, ?_⟩
      rintro _ ⟨⟩
      exact ⟨v, hv, rfl⟩

theorem record_openWatch (r : Registry) (kind : Kind) (missed : List Mutation) (other : Kind) :
    (r.openWatch kind missed).record other =
      if other = kind then { r.record kind with
        watchCalls := (r.record kind).watchCalls + 1
        watchers := (r.record kind).watchers ++ [r.streams.opened] } else r.record other :=
  record_modify r kind (fun k ↦ { k with
    watchCalls := k.watchCalls + 1, watchers := k.watchers ++ [r.streams.opened] }) other

/-- A new watch touches no object and no recorded mutation. -/
theorem kept_openWatch (r : Registry) (kind : Kind) (missed : List Mutation) (other : Kind) :
    ((r.openWatch kind missed).record other).objects = (r.record other).objects ∧
      ((r.openWatch kind missed).record other).history = (r.record other).history := by
  rw [record_openWatch]
  split
  · next h => simp only [h, and_self]
  · exact ⟨rfl, rfl⟩

/-! ### Calls -/

/-- Registries with the same mutations, watches and streams. -/
structure Alike (r r' : Registry) : Prop where
  history : ∀ kind, (r'.record kind).history = (r.record kind).history
  watchers : ∀ kind, (r'.record kind).watchers = (r.record kind).watchers
  streams : r'.streams = r.streams
  lastVersion : r'.lastVersion = r.lastVersion

theorem Alike.refl (r : Registry) : Alike r r := ⟨fun _ ↦ rfl, fun _ ↦ rfl, rfl, rfl⟩

theorem Alike.trans {r r' r'' : Registry} (h : Alike r r') (k : Alike r' r'') : Alike r r'' where
  history kind := (k.history kind).trans (h.history kind)
  watchers kind := (k.watchers kind).trans (h.watchers kind)
  streams := k.streams.trans h.streams
  lastVersion := k.lastVersion.trans h.lastVersion

theorem alike_lastUid (r : Registry) (n : Nat) : Alike r { r with lastUid := n } :=
  ⟨fun _ ↦ rfl, fun _ ↦ rfl, rfl, rfl⟩

theorem alike_modify (r : Registry) (kind : Kind) {f : KindRecord → KindRecord}
    (hf : ∀ k, (f k).history = k.history ∧ (f k).watchers = k.watchers) :
    Alike r (r.modify kind f) where
  history other := by
    rw [record_modify]
    split
    · next h => rw [(hf _).1, h]
    · rfl
  watchers other := by
    rw [record_modify]
    split
    · next h => rw [(hf _).2, h]
    · rfl
  streams := rfl
  lastVersion := rfl

theorem objects_modify (r : Registry) (kind : Kind) {f : KindRecord → KindRecord}
    (hf : ∀ k, (f k).objects = k.objects) (other : Kind) :
    ((r.modify kind f).record other).objects = (r.record other).objects := by
  rw [record_modify]
  split
  · next h => rw [hf, h]
  · rfl

/-- Puts a payload under a key. -/
def putObject (r : Registry) (kind : Kind) (key : Key) (payload : Json) : Registry :=
  r.modify kind fun k ↦ { k with objects := k.objects.insert key payload }

/-- Removes the payload under a key. -/
def eraseObject (r : Registry) (kind : Kind) (key : Key) : Registry :=
  r.modify kind fun k ↦ { k with objects := k.objects.erase key }

theorem alike_putObject (r : Registry) (kind : Kind) (key : Key) (payload : Json) :
    Alike r (r.putObject kind key payload) :=
  alike_modify r kind (by exact fun _ ↦ ⟨rfl, rfl⟩)

theorem alike_eraseObject (r : Registry) (kind : Kind) (key : Key) :
    Alike r (r.eraseObject kind key) :=
  alike_modify r kind (by exact fun _ ↦ ⟨rfl, rfl⟩)

/-- A refused creation draws an identifier at most; otherwise a new object is stored and
committed, with the next identifier. -/
theorem create_cases (r : Registry) (kind : Kind) (payload : Json) :
    (∃ e n, r.lastUid ≤ n ∧ r.create kind payload = ({ r with lastUid := n }, .error e)) ∨
      ∃ (o : Object) (uid : String) (stored : Json), o.payload = payload ∧
        uid = "uid-" ++ toString (r.lastUid + 1) ∧
        stored = stamp (.string uid) (r.lastVersion + 1) payload ∧
        (r.record kind).objects[o.key]? = none ∧
        r.create kind payload = ((putObject { r with lastUid := r.lastUid + 1 } kind o.key
          stored).commit kind (.added stored), .ok stored) := by
  rw [create]
  rcases ho : Object.ofPayload payload with e | o
  · exact .inl ⟨_, _, Nat.le_refl _, rfl⟩
  · dsimp only
    split
    · exact .inl ⟨_, _, Nat.le_succ _, rfl⟩
    · next habsent =>
      refine .inr ⟨o, _, _, Object.ofPayload_eq_ok_iff.1 ho, rfl, rfl, ?_, rfl⟩
      change ¬(r.record kind).objects.contains o.key = true at habsent
      simpa using habsent

/-- A refused update changes nothing; otherwise the object is replaced and committed, with the
identifier that it had. -/
theorem update_cases (r : Registry) (kind : Kind) (payload : Json) :
    (∃ e, r.update kind payload = (r, .error e)) ∨
      ∃ (o : Object) (current stored : Json), o.payload = payload ∧
        (r.record kind).objects[o.key]? = some current ∧
        stored = stamp (((metadataOf current).get? "uid").getD .null) (r.lastVersion + 1) payload ∧
        r.update kind payload =
          ((r.putObject kind o.key stored).commit kind (.modified stored), .ok stored) := by
  rw [update]
  rcases ho : Object.ofPayload payload with e | o
  · exact .inl ⟨_, rfl⟩
  · dsimp only
    rcases hcurrent : (r.record kind).objects[o.key]? with - | current
    · exact .inl ⟨_, rfl⟩
    · dsimp only
      split
      · exact .inl ⟨_, rfl⟩
      · exact .inr ⟨o, current, _, Object.ofPayload_eq_ok_iff.1 ho, hcurrent, rfl, rfl⟩

/-- A refused deletion changes nothing; otherwise the object is removed, and its final state is
committed with a version of its own. -/
theorem delete_cases (r : Registry) (kind : Kind) (key : Key) :
    (∃ e, r.delete kind key = (r, .error e)) ∨
      ∃ current last : Json, (r.record kind).objects[key]? = some current ∧
        last = setMetadata "resourceVersion" (.string (toString (r.lastVersion + 1))) current ∧
        r.delete kind key = ((r.eraseObject kind key).commit kind (.deleted last), .ok ()) := by
  rw [delete]
  rcases hcurrent : (r.record kind).objects[key]? with - | current
  · exact .inl ⟨_, rfl⟩
  · exact .inr ⟨current, _, rfl, rfl, rfl⟩

/-- A list call changes counters only. Unless it is refused it answers with the objects and the last
version. -/
theorem list_spec (r : Registry) (kind : Kind) :
    Alike r (r.list kind).1 ∧
      (∀ other, ((r.list kind).1.record other).objects = (r.record other).objects) ∧
      ∀ l, (r.list kind).2 = .ok l →
        l = ⟨(r.record kind).objects.toList.map (·.2), some (toString r.lastVersion)⟩ := by
  have hcalls : Alike r (r.modify kind fun k ↦ { k with listCalls := k.listCalls + 1 }) :=
    alike_modify r kind (by exact fun _ ↦ ⟨rfl, rfl⟩)
  have hobjects : ∀ other, ((r.modify kind fun k ↦
      { k with listCalls := k.listCalls + 1 }).record other).objects = (r.record other).objects :=
    objects_modify r kind (by exact fun _ ↦ rfl)
  rw [list]
  split
  · refine ⟨hcalls.trans ?_, fun other ↦ ?_, nofun⟩
    · dsimp only
      exact alike_modify _ kind (by exact fun _ ↦ ⟨rfl, rfl⟩)
    · exact (objects_modify _ kind (by exact fun _ ↦ rfl) other).trans (hobjects other)
  · refine ⟨hcalls, hobjects, fun l h ↦ ?_⟩
    rw [← Except.ok.inj h, hobjects]
    rfl

/-! ### Requests -/

/-- What a client can ask of the registry, or do with a watch. -/
inductive Request where
  | create (kind : Kind) (payload : Json)
  | update (kind : Kind) (payload : Json)
  | delete (kind : Kind) (key : Key)
  | inject (kind : Kind) (m : Mutation)
  | breakWatches (kind : Kind) (e : TransportError)
  | failLists (kind : Kind) (n : Nat)
  | list (kind : Kind)
  | watch (kind : Kind) (version? : Option String)
  | read (stream : Nat)
  | drop (stream : Nat)
deriving DecidableEq

/-- The registry after a request. -/
def perform (r : Registry) : Request → Registry
  | .create kind payload => (r.create kind payload).1
  | .update kind payload => (r.update kind payload).1
  | .delete kind key => (r.delete kind key).1
  | .inject kind m => r.inject kind m
  | .breakWatches kind e => r.breakWatches kind e
  | .failLists kind n => r.failLists kind n
  | .list kind => (r.list kind).1
  | .watch kind version? => (r.watch kind version?).1
  | .read stream => (r.read stream).1
  | .drop stream => r.drop stream

/-- **What a request can be to the watches**: nothing, a commit, a break, a new watch, or a step of
a reader. -/
theorem perform_cases (r : Registry) (req : Request) :
    Alike r (r.perform req) ∨
    (∃ r₀ kind m, Alike r r₀ ∧ r.perform req = r₀.commit kind m) ∨
    (∃ kind e, req = .breakWatches kind e) ∨
    (∃ kind missed, r.perform req = r.openWatch kind missed) ∨
    ∃ n, req = .read n ∨ req = .drop n := by
  cases req with
  | create kind payload =>
    obtain ⟨e, n, -, h⟩ | ⟨o, uid, stored, -, -, -, -, h⟩ := r.create_cases kind payload
    · exact .inl (by rw [perform, h]; exact r.alike_lastUid n)
    · exact .inr (.inl ⟨_, kind, _, (r.alike_lastUid _).trans (alike_putObject _ kind o.key stored),
        by rw [perform, h]⟩)
  | update kind payload =>
    obtain ⟨e, h⟩ | ⟨o, current, stored, -, -, -, h⟩ := r.update_cases kind payload
    · exact .inl (by rw [perform, h]; exact .refl r)
    · exact .inr (.inl ⟨_, kind, _, r.alike_putObject kind o.key stored, by rw [perform, h]⟩)
  | delete kind key =>
    obtain ⟨e, h⟩ | ⟨current, last, -, -, h⟩ := r.delete_cases kind key
    · exact .inl (by rw [perform, h]; exact .refl r)
    · exact .inr (.inl ⟨_, kind, _, r.alike_eraseObject kind key, by rw [perform, h]⟩)
  | inject kind m => exact .inr (.inl ⟨r, kind, m, .refl r, rfl⟩)
  | breakWatches kind e => exact .inr (.inr (.inl ⟨kind, e, rfl⟩))
  | failLists kind n =>
    exact .inl (by rw [perform, failLists]; exact alike_modify r kind (by exact fun _ ↦ ⟨rfl, rfl⟩))
  | list kind => exact .inl (r.list_spec kind).1
  | watch kind version? =>
    obtain ⟨e, h⟩ | ⟨missed, h, -⟩ := r.watch_cases kind version?
    · exact .inl (by rw [perform, h]; exact .refl r)
    · exact .inr (.inr (.inr (.inl ⟨kind, missed, by rw [perform, h]⟩)))
  | read n => exact .inr (.inr (.inr (.inr ⟨n, .inl rfl⟩)))
  | drop n => exact .inr (.inr (.inr (.inr ⟨n, .inr rfl⟩)))

/-! ### The wiring of watches -/

/-- Every open watch has a stream of its own. -/
structure Wired (r : Registry) : Prop where
  nodup : ∀ kind, (r.record kind).watchers.Nodup
  opened : ∀ kind, ∀ n ∈ (r.record kind).watchers, n < r.streams.opened
  disjoint : ∀ kind other n, n ∈ (r.record kind).watchers → n ∈ (r.record other).watchers →
    kind = other

theorem wired_empty : Wired {} where
  nodup kind := by simp [record]
  opened kind n h := by simp [record] at h
  disjoint kind other n h := by simp [record] at h

/-- Forgetting watches keeps the wiring. -/
theorem Wired.mono (h : Wired r) {r' : Registry}
    (hw : ∀ kind, ((r'.record kind).watchers).Sublist (r.record kind).watchers)
    (ho : r'.streams.opened = r.streams.opened) : Wired r' where
  nodup kind := (hw kind).nodup (h.nodup kind)
  opened kind n hn := ho ▸ h.opened kind n ((hw kind).subset hn)
  disjoint kind other n hn hm :=
    h.disjoint kind other n ((hw kind).subset hn) ((hw other).subset hm)

theorem Wired.alike (h : Wired r) {r' : Registry} (ha : Alike r r') : Wired r' :=
  h.mono (fun kind ↦ by rw [ha.watchers]) (by rw [ha.streams])

theorem Wired.nodup_live (h : Wired r) (kind : Kind) : (r.live kind).Nodup :=
  (h.nodup kind).filter _

theorem Wired.commit (h : Wired r) (kind : Kind) (m : Mutation) : Wired (r.commit kind m) := by
  refine h.mono (fun other ↦ ?_) (by rw [streams_commit, Streams.opened_sendAll])
  rw [record_commit]
  split
  · next he => exact he ▸ List.filter_sublist
  · exact .refl _

theorem Wired.breakWatches (h : Wired r) (kind : Kind) (e : TransportError) :
    Wired (r.breakWatches kind e) := by
  refine h.mono (fun other ↦ ?_) (by
    rw [streams_breakWatches, Streams.opened_closeAll, Streams.opened_sendAll])
  rw [record_breakWatches]
  split
  · exact List.nil_sublist _
  · exact .refl _

theorem Wired.openWatch (h : Wired r) (kind : Kind) (missed : List Mutation) :
    Wired (r.openWatch kind missed) := by
  -- the new number is above all that are in use
  have hnew : ∀ other, r.streams.opened ∉ (r.record other).watchers :=
    fun other hn ↦ Nat.lt_irrefl _ (h.opened other _ hn)
  have hmem : ∀ other n, n ∈ ((r.openWatch kind missed).record other).watchers →
      n ∈ (r.record other).watchers ∨ (n = r.streams.opened ∧ other = kind) := by
    intro other n hn
    rw [record_openWatch] at hn
    split at hn
    · next he =>
      rcases List.mem_append.1 hn with hn | hn
      · exact .inl (he ▸ hn)
      · exact .inr ⟨List.mem_singleton.1 hn, he⟩
    · exact .inl hn
  constructor
  · intro other
    rw [record_openWatch]
    split
    · refine List.nodup_append.2 ⟨h.nodup kind, List.pairwise_singleton _ _, ?_⟩
      intro n hn m hm he
      rw [List.mem_singleton.1 hm] at he
      exact hnew kind (he ▸ hn)
    · exact h.nodup other
  · intro other n hn
    show n < r.streams.opened + 1
    rcases hmem other n hn with hold | ⟨rfl, -⟩
    · exact Nat.lt_succ_of_lt (h.opened other n hold)
    · exact Nat.lt_succ_self _
  · intro a b n ha hb
    rcases hmem a n ha with ha | ⟨rfl, rfl⟩
    · rcases hmem b n hb with hb | ⟨rfl, -⟩
      · exact h.disjoint a b n ha hb
      · exact absurd ha (hnew a)
    · rcases hmem b _ hb with hb | ⟨-, rfl⟩
      · exact absurd hb (hnew b)
      · rfl

theorem Wired.perform (h : Wired r) (req : Request) : Wired (r.perform req) := by
  obtain ha | ⟨r₀, kind, m, ha, hr⟩ | ⟨kind, e, rfl⟩ | ⟨kind, missed, hr⟩ | ⟨n, rfl | rfl⟩ :=
    r.perform_cases req
  · exact h.alike ha
  · exact hr ▸ (h.alike ha).commit kind m
  · exact h.breakWatches kind e
  · exact hr ▸ h.openWatch kind missed
  · exact h.mono (fun _ ↦ .refl _) rfl
  · exact h.mono (fun _ ↦ .refl _) rfl

theorem sending_send (s : Stream) (d : Delivery) : (s.send d).sending = s.sending := by
  unfold Stream.send
  split <;> rfl

theorem sending_read (s : Stream) : s.read.1.sending = s.sending := by
  unfold Stream.read
  split <;> rfl

/-- The sending side of a stream goes with a break of its watch only. -/
theorem sending_perform (h : Wired r) {n : Nat} (hn : (r.streams.get n).sending) {req : Request}
    (hreq : ∀ kind e, req = .breakWatches kind e → n ∉ (r.record kind).watchers) :
    ((r.perform req).streams.get n).sending := by
  obtain ha | ⟨r₀, kind, m, ha, hr⟩ | ⟨kind, e, rfl⟩ | ⟨kind, missed, hr⟩ | ⟨m, rfl | rfl⟩ :=
    r.perform_cases req
  · rw [ha.streams]
    exact hn
  · rw [hr, streams_commit, Streams.get_sendAll ((h.alike ha).nodup_live kind), ha.streams]
    split
    · rw [sending_send]
      exact hn
    · exact hn
  · have hlive : n ∉ r.live kind := fun hl ↦ hreq kind e rfl (mem_live.1 hl).1
    rw [Registry.perform, streams_breakWatches, Streams.get_closeAll (h.nodup_live kind),
      if_neg hlive, Streams.get_sendAll (h.nodup_live kind), if_neg hlive]
    exact hn
  · rw [hr]
    by_cases hnew : n = r.streams.opened
    · rw [hnew, Registry.openWatch, Streams.get_openWith_self]
    · rw [Registry.openWatch, Streams.get_openWith_of_ne hnew]
      exact hn
  · exact (Streams.sending_modify sending_read r.streams m n).trans hn
  · have hdrop := Streams.sending_modify (f := ({ · with queue := [], reading := false }))
      (fun _ ↦ rfl) r.streams m n
    exact hdrop.trans hn

/-! ### What a watch holds -/

/-- A watch of a kind that has yielded the recorded mutations `seen`: it holds those recorded after
them, or, once it was broken, the first of these and the error. -/
inductive Feed (r : Registry) (kind : Kind) (n : Nat) (seen : List (Nat × Mutation)) : Prop
  | live (later : List (Nat × Mutation)) (history : (r.record kind).history = seen ++ later)
      (stream : r.streams.get n = { queue := later.map (.mutation ·.2) })
      (watched : n ∈ (r.record kind).watchers)
  | broken (later missed : List (Nat × Mutation)) (e : TransportError)
      (history : (r.record kind).history = seen ++ later ++ missed)
      (stream : r.streams.get n = {
        queue := later.map (.mutation ·.2) ++ [.failure e], sending := false })
      (unwatched : ∀ other, n ∉ (r.record other).watchers) (opened : n < r.streams.opened)

theorem Feed.reading {kind : Kind} {n : Nat} {seen : List (Nat × Mutation)}
    (h : Feed r kind n seen) :
    (r.streams.get n).reading = true := by
  rcases h with ⟨later, -, hs, -⟩ | ⟨later, missed, e, -, hs, -, -⟩ <;> rw [hs]

/-- What a watch has yielded was recorded first. -/
theorem Feed.recorded {kind : Kind} {n : Nat} {seen : List (Nat × Mutation)}
    (h : Feed r kind n seen) :
    seen <+: (r.record kind).history := by
  rcases h with ⟨later, hh, -, -⟩ | ⟨later, missed, e, hh, -, -, -⟩
  · exact hh ▸ List.prefix_append _ _
  · exact hh ▸ List.append_assoc seen later missed ▸ List.prefix_append _ _

/-- A change of other streams and of no record that the watch depends on. -/
theorem Feed.frame {kind : Kind} {n : Nat} {seen : List (Nat × Mutation)} (h : Feed r kind n seen)
    {r' : Registry} (hh : (r'.record kind).history = (r.record kind).history)
    (hw : ∀ other, n ∈ (r'.record other).watchers ↔ n ∈ (r.record other).watchers)
    (hs : r'.streams.get n = r.streams.get n) (ho : r.streams.opened ≤ r'.streams.opened) :
    Feed r' kind n seen := by
  rcases h with
    ⟨later, history, stream, watched⟩ | ⟨later, missed, e, history, stream, unwatched, hn⟩
  · exact .live later (hh.trans history) (hs.trans stream) ((hw kind).2 watched)
  · exact .broken later missed e (hh.trans history) (hs.trans stream)
      (fun other hn ↦ unwatched other ((hw other).1 hn)) (Nat.lt_of_lt_of_le hn ho)

theorem Feed.alike {kind : Kind} {n : Nat} {seen : List (Nat × Mutation)} (h : Feed r kind n seen)
    {r' : Registry} (ha : Alike r r') : Feed r' kind n seen :=
  h.frame (ha.history kind) (fun other ↦ by rw [ha.watchers]) (by rw [ha.streams])
    (Nat.le_of_eq (by rw [ha.streams]))

/-- A commit puts the mutation behind those that a live watch of the kind holds. -/
theorem Feed.commit (hw : Wired r) {kind : Kind} {n : Nat} {seen : List (Nat × Mutation)}
    (h : Feed r kind n seen) (other : Kind) (m : Mutation) :
    Feed (r.commit other m) kind n seen := by
  have hmem : ∀ k, n ∈ ((r.commit other m).record k).watchers ↔ n ∈ (r.record k).watchers := by
    intro k
    rw [record_commit]
    split
    · next he => simp [he, mem_live, h.reading]
    · rfl
  have hget : (r.commit other m).streams.get n =
      if n ∈ (r.record other).watchers then (r.streams.get n).send (.mutation m)
      else r.streams.get n := by
    simp [streams_commit, Streams.get_sendAll (hw.nodup_live other), mem_live, h.reading]
  rcases h with
    ⟨later, history, stream, watched⟩ | ⟨later, missed, e, history, stream, unwatched, hn⟩
  · by_cases he : kind = other
    · subst he
      refine .live (later ++ [(r.lastVersion + 1, m)]) ?_ ?_ ((hmem kind).2 watched)
      · rw [record_commit, if_pos rfl, history, List.append_assoc]
      · simp [hget, watched, stream, Stream.send]
    · have hn : n ∉ (r.record other).watchers :=
        fun hn ↦ he (hw.disjoint kind other n watched hn)
      refine .live later ?_ ?_ ((hmem kind).2 watched)
      · rw [record_commit, if_neg he, history]
      · rw [hget, if_neg hn, stream]
  · -- a broken watch is sent nothing, so a mutation of its kind is missed
    have hs : (r.commit other m).streams.get n = r.streams.get n := by
      rw [hget, if_neg (unwatched other)]
    have hunwatched : ∀ k, n ∉ ((r.commit other m).record k).watchers :=
      fun k hn ↦ unwatched k ((hmem k).1 hn)
    have hopened : n < (r.commit other m).streams.opened := by
      rwa [streams_commit, Streams.opened_sendAll]
    by_cases he : kind = other
    · subst he
      refine .broken later (missed ++ [(r.lastVersion + 1, m)]) e ?_ (hs.trans stream) hunwatched
        hopened
      rw [record_commit, if_pos rfl, history, List.append_assoc]
    · refine .broken later missed e ?_ (hs.trans stream) hunwatched hopened
      rw [record_commit, if_neg he, history]

/-- A break ends the watches of a kind after what they hold. -/
theorem Feed.breakWatches (hw : Wired r) {kind : Kind} {n : Nat} {seen : List (Nat × Mutation)}
    (h : Feed r kind n seen) (other : Kind) (e : TransportError) :
    Feed (r.breakWatches other e) kind n seen := by
  have hhistory : ((r.breakWatches other e).record kind).history = (r.record kind).history :=
    (r.kept_breakWatches other e kind).2
  have hmem : ∀ k, n ∈ ((r.breakWatches other e).record k).watchers ↔
      n ∈ (r.record k).watchers ∧ k ≠ other := by
    intro k
    rw [record_breakWatches]
    split
    · next he => simp [he]
    · next he => simp [he]
  have hlive : n ∈ r.live other ↔ n ∈ (r.record other).watchers := by simp [mem_live, h.reading]
  have hget : (r.breakWatches other e).streams.get n =
      if n ∈ (r.record other).watchers then
        { (r.streams.get n).send (.failure e) with sending := false }
      else r.streams.get n := by
    rw [streams_breakWatches, Streams.get_closeAll (hw.nodup_live other),
      Streams.get_sendAll (hw.nodup_live other)]
    simp only [hlive]
    split <;> rfl
  have hopened : (r.breakWatches other e).streams.opened = r.streams.opened := by
    rw [streams_breakWatches, Streams.opened_closeAll, Streams.opened_sendAll]
  rcases h with
    ⟨later, history, stream, watched⟩ | ⟨later, missed, e', history, stream, unwatched, hn⟩
  · by_cases he : kind = other
    · subst he
      -- the error comes behind all that the watch holds, and nothing is missed yet
      refine .broken later [] e (by rw [hhistory, history, List.append_nil]) ?_ ?_
        (hopened ▸ hw.opened kind n watched)
      · simp [hget, watched, stream, Stream.send]
      · intro k hn
        obtain ⟨hk, hne⟩ := (hmem k).1 hn
        exact hne (hw.disjoint k kind n hk watched)
    · have hn : n ∉ (r.record other).watchers :=
        fun hn ↦ he (hw.disjoint kind other n watched hn)
      exact .live later (hhistory.trans history) (by rw [hget, if_neg hn, stream])
        ((hmem kind).2 ⟨watched, he⟩)
  · exact .broken later missed e' (hhistory.trans history)
      (by rw [hget, if_neg (unwatched other), stream])
      (fun k hn ↦ unwatched k ((hmem k).1 hn).1) (hopened ▸ hn)

theorem Feed.lt_opened (hw : Wired r) {kind : Kind} {n : Nat} {seen : List (Nat × Mutation)}
    (h : Feed r kind n seen) : n < r.streams.opened := by
  rcases h with ⟨-, -, -, watched⟩ | ⟨-, -, -, -, -, -, opened⟩
  · exact hw.opened kind n watched
  · exact opened

/-- A new watch has a stream of its own. -/
theorem Feed.openWatch (hw : Wired r) {kind : Kind} {n : Nat} {seen : List (Nat × Mutation)}
    (h : Feed r kind n seen) (other : Kind) (missed : List Mutation) :
    Feed (r.openWatch other missed) kind n seen := by
  have hne : n ≠ r.streams.opened := Nat.ne_of_lt (h.lt_opened hw)
  refine h.frame (r.kept_openWatch other missed kind).2 (fun k ↦ ?_)
    (Streams.get_openWith_of_ne hne _) (Nat.le_succ _)
  rw [record_openWatch]
  split
  · next he => simp [he, hne]
  · rfl

/-- **No request of anyone but its reader touches what a watch is to yield.** -/
theorem Feed.perform (hw : Wired r) {kind : Kind} {n : Nat} {seen : List (Nat × Mutation)}
    (h : Feed r kind n seen) {req : Request} (hread : req ≠ .read n) (hdrop : req ≠ .drop n) :
    Feed (r.perform req) kind n seen := by
  obtain ha | ⟨r₀, other, m, ha, hr⟩ | ⟨other, e, rfl⟩ | ⟨other, missed, hr⟩ | ⟨m, rfl | rfl⟩ :=
    r.perform_cases req
  · exact h.alike ha
  · exact hr ▸ (h.alike ha).commit (hw.alike ha) other m
  · exact h.breakWatches hw other e
  · exact hr ▸ h.openWatch hw other missed
  · have hne : n ≠ m := fun he ↦ hread (by rw [he])
    exact h.frame rfl (fun _ ↦ .rfl) (Streams.get_modify_of_ne hne _ _) (Nat.le_refl _)
  · have hne : n ≠ m := fun he ↦ hdrop (by rw [he])
    exact h.frame rfl (fun _ ↦ .rfl) (Streams.get_modify_of_ne hne _ _) (Nat.le_refl _)

/-- **What the reader of a watch finds**: the mutation recorded next, or the error that broke the
watch after all that it held, or nothing yet. -/
theorem Feed.read {kind : Kind} {n : Nat} {seen : List (Nat × Mutation)} (h : Feed r kind n seen) :
    (∃ x, (r.read n).2 = .delivery (.mutation x.2) ∧ Feed (r.read n).1 kind n (seen ++ [x])) ∨
    (∃ e, (r.read n).2 = .delivery (.failure e)) ∨
    ((r.read n).2 = .pending ∧ Feed (r.read n).1 kind n seen) := by
  have hget : (r.read n).1.streams.get n = (r.streams.get n).read.1 :=
    Streams.get_modify_self r.streams n _
  have hreading : (r.read n).2 = (r.streams.get n).read.2 := rfl
  rcases h with
    ⟨later, history, stream, watched⟩ | ⟨later, missed, e, history, stream, unwatched, hn⟩
  · rw [stream] at hget hreading
    rcases later with - | ⟨x, later⟩
    · exact .inr (.inr ⟨hreading, .live [] history hget watched⟩)
    · exact .inl ⟨x, hreading, .live later (by rw [List.append_assoc]; exact history) hget watched⟩
  · rw [stream] at hget hreading
    rcases later with - | ⟨x, later⟩
    · exact .inr (.inl ⟨e, hreading⟩)
    · refine .inl ⟨x, hreading, .broken later missed e ?_ hget unwatched hn⟩
      rw [List.append_assoc seen]
      exact history

/-! ### Histories grow -/

/-- A request adds to the history of a kind at its end, under new versions only. -/
theorem history_perform (r : Registry) (req : Request) (kind : Kind) :
    ∃ new, ((r.perform req).record kind).history = (r.record kind).history ++ new ∧
      (∀ x ∈ new, r.lastVersion < x.1) ∧ r.lastVersion ≤ (r.perform req).lastVersion := by
  have hsame : ∀ r' : Registry, (r'.record kind).history = (r.record kind).history →
      r.lastVersion ≤ r'.lastVersion → ∃ new,
        (r'.record kind).history = (r.record kind).history ++ new ∧
          (∀ x ∈ new, r.lastVersion < x.1) ∧ r.lastVersion ≤ r'.lastVersion :=
    fun r' hh hv ↦ ⟨[], by rw [hh, List.append_nil], nofun, hv⟩
  obtain ha | ⟨r₀, other, m, ha, hr⟩ | ⟨other, e, rfl⟩ | ⟨other, missed, hr⟩ | ⟨n, rfl | rfl⟩ :=
    r.perform_cases req
  · exact hsame _ (ha.history kind) (Nat.le_of_eq ha.lastVersion.symm)
  · rw [hr]
    have hv : r.lastVersion ≤ (r₀.commit other m).lastVersion := by
      rw [lastVersion_commit, ha.lastVersion]
      exact Nat.le_succ _
    by_cases he : kind = other
    · subst he
      refine ⟨[(r.lastVersion + 1, m)], ?_, fun x hx ↦ ?_, hv⟩
      · rw [record_commit, if_pos rfl, ha.history, ha.lastVersion]
      · rw [List.mem_singleton.1 hx]
        exact Nat.lt_succ_self _
    · exact hsame _ (by rw [record_commit, if_neg he, ha.history]) hv
  · exact hsame _ (r.kept_breakWatches other e kind).2 (Nat.le_refl _)
  · rw [hr]
    exact hsame _ (r.kept_openWatch other missed kind).2 (Nat.le_refl _)
  · exact hsame _ rfl (Nat.le_refl _)
  · exact hsame _ rfl (Nat.le_refl _)

/-- `seen` is what was recorded for a kind up to a version that was given out. -/
structure UpTo (r : Registry) (kind : Kind) (v : Nat) (seen : List (Nat × Mutation)) : Prop where
  given : v ≤ r.lastVersion
  le : ∀ x ∈ seen, x.1 ≤ v
  later : ∃ later, (r.record kind).history = seen ++ later ∧ ∀ x ∈ later, v < x.1

theorem UpTo.perform {kind : Kind} {v : Nat} {seen : List (Nat × Mutation)} (h : UpTo r kind v seen)
    (req : Request) : UpTo (r.perform req) kind v seen := by
  obtain ⟨new, hnew, hversions, hv⟩ := r.history_perform req kind
  obtain ⟨later, hlater, hgt⟩ := h.later
  refine ⟨Nat.le_trans h.given hv, h.le, later ++ new, ?_, fun x hx ↦ ?_⟩
  · rw [hnew, hlater, List.append_assoc]
  · rcases List.mem_append.1 hx with hx | hx
    · exact hgt x hx
    · exact Nat.lt_of_le_of_lt h.given (hversions x hx)

/-- **A new watch holds the mutations that were recorded after the version it was opened from.** -/
theorem UpTo.feed {kind : Kind} {v : Nat} {seen : List (Nat × Mutation)} (h : UpTo r kind v seen) :
    Feed (r.openWatch kind (r.since kind v)) kind r.streams.opened seen := by
  obtain ⟨later, hh, hlater⟩ := h.later
  -- the version splits the history where `seen` ends
  have hsince : r.since kind v = later.map (·.2) := by
    rw [since, hh, List.filter_append, List.filter_eq_nil_iff.2, List.filter_eq_self.2]
    · rfl
    · exact fun x hx ↦ decide_eq_true (hlater x hx)
    · exact fun x hx hv ↦ Nat.not_lt.2 (h.le x hx) (of_decide_eq_true hv)
  refine .live later ?_ ?_ ?_
  · rw [record_openWatch, if_pos rfl, hh]
  · refine (Streams.get_openWith_self r.streams _).trans ?_
    rw [hsince, List.map_map]
    rfl
  · rw [record_openWatch, if_pos rfl]
    exact List.mem_append_right _ List.mem_cons_self

end Registry

end Informer
