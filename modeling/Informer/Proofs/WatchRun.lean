import Informer.Proofs.RegistryLog

/-!
# Watches have no gap and no repetition

A client lists a kind, and later opens a watch from the version that the list call told. Before,
between and after the two calls any number of clients ask for anything, on this kind and on others.

What the reader of the watch has taken and what still waits for it are, together and at every moment
until the watch is broken, the mutations recorded for the kind after that version, each once and in
the order of their versions (`Live.performAll`). A break closes the stream behind what it holds
(`Live.breakWatches`), and to a closed stream nothing is added any more (`Closed.performAll`). The
main result is `watch_complete`.
-/

namespace Informer

/-- The delivery that a reader found, if it found one. -/
def Reading.delivery? : Reading → Option Delivery
  | .delivery d => some d
  | _ => none

namespace Registry

variable {r : Registry} {kind : Kind} {n : Nat}

/-! ### Runs -/

/-- Some requests, one after another. -/
def performAll (r : Registry) (reqs : List Request) : Registry := reqs.foldl perform r

@[simp] theorem performAll_nil (r : Registry) : r.performAll [] = r := rfl

@[simp] theorem performAll_cons (r : Registry) (req : Request) (reqs : List Request) :
    r.performAll (req :: reqs) = (r.perform req).performAll reqs :=
  rfl

@[simp] theorem performAll_append (r : Registry) (before later : List Request) :
    r.performAll (before ++ later) = (r.performAll before).performAll later :=
  List.foldl_append

/-- The deliveries that the reader of a stream takes when a request is performed. -/
def takenBy (r : Registry) (n : Nat) (req : Request) : List Delivery :=
  if req = .read n then (r.read n).2.delivery?.toList else []

/-- The deliveries that the reader of a stream takes in the course of some requests. -/
def taken (r : Registry) (n : Nat) : List Request → List Delivery
  | [] => []
  | req :: reqs => r.takenBy n req ++ (r.perform req).taken n reqs

theorem taken_append (r : Registry) (n : Nat) (before later : List Request) :
    r.taken n (before ++ later) = r.taken n before ++ (r.performAll before).taken n later := by
  induction before generalizing r with
  | nil => rfl
  | cons req before ih => simp [taken, ih]

/-- What some requests add to the recorded mutations of a kind. -/
def additionsAll (r : Registry) (kind : Kind) : List Request → List (Nat × Mutation)
  | [] => []
  | req :: reqs => r.additions kind req ++ (r.perform req).additionsAll kind reqs

theorem history_performAll (r : Registry) (reqs : List Request) (kind : Kind) :
    ((r.performAll reqs).record kind).history =
      (r.record kind).history ++ r.additionsAll kind reqs := by
  induction reqs generalizing r with
  | nil => exact (List.append_nil _).symm
  | cons req reqs ih =>
    rw [performAll_cons, ih, (r.history_perform_eq req kind).1, List.append_assoc, additionsAll]

/-- What waits in a stream. -/
def waiting (r : Registry) (n : Nat) : List Delivery := (r.streams.get n).queue

/-- The mutations recorded for a kind after a version. -/
def recordedAfter (r : Registry) (kind : Kind) (version : Nat) : List (Nat × Mutation) :=
  (r.record kind).history.filter fun x ↦ version < x.1

theorem Wired.performAll (h : Wired r) (reqs : List Request) : Wired (r.performAll reqs) := by
  induction reqs generalizing r with
  | nil => exact h
  | cons req reqs ih => exact ih (h.perform req)

theorem Ordered.performAll (h : Ordered r kind) (reqs : List Request) :
    Ordered (r.performAll reqs) kind := by
  induction reqs generalizing r with
  | nil => exact h
  | cons req reqs ih => exact ih (h.perform req)

theorem keyed_performAll (h : Keyed r kind) (reqs : List Request) :
    Keyed (r.performAll reqs) kind := by
  induction reqs generalizing r with
  | nil => exact h
  | cons req reqs ih => exact ih (keyed_perform h req)

theorem UpTo.performAll {v : Nat} {seen : List (Nat × Mutation)} (h : UpTo r kind v seen)
    (reqs : List Request) : UpTo (r.performAll reqs) kind v seen := by
  induction reqs generalizing r with
  | nil => exact h
  | cons req reqs ih => exact ih (h.perform req)

/-- What was recorded up to a version is what was not recorded after it. -/
theorem UpTo.history_eq {v : Nat} {seen : List (Nat × Mutation)} (h : UpTo r kind v seen) :
    (r.record kind).history = seen ++ r.recordedAfter kind v := by
  obtain ⟨later, hh, hlater⟩ := h.later
  rw [recordedAfter, hh, List.filter_append, List.filter_eq_nil_iff.2, List.filter_eq_self.2,
    List.nil_append]
  · exact fun x hx ↦ decide_eq_true (hlater x hx)
  · exact fun x hx hv ↦ Nat.not_lt.2 (h.le x hx) (of_decide_eq_true hv)

/-! ### Watches that are not broken -/

/-- The watch of a kind has yielded the recorded mutations `seen`, and its stream is fed. -/
structure Live (r : Registry) (kind : Kind) (n : Nat) (seen : List (Nat × Mutation)) : Prop where
  feed : Feed r kind n seen
  sending : (r.streams.get n).sending

/-- A fed stream holds the mutations recorded after those that it has yielded. -/
theorem Live.holds {seen : List (Nat × Mutation)} (h : Live r kind n seen) :
    ∃ later, (r.record kind).history = seen ++ later ∧
      r.streams.get n = { queue := later.map (.mutation ·.2) } ∧ n ∈ (r.record kind).watchers := by
  obtain ⟨later, history, stream, watched⟩ | ⟨later, missed, e, history, stream, -, -⟩ := h.feed
  · exact ⟨later, history, stream, watched⟩
  · have hsending := h.sending
    rw [stream] at hsending
    cases hsending

/-- A request that does not break the watch takes from the front of what it holds, if it is a step
of the reader, and keeps it fed. -/
theorem Live.perform (hw : Wired r) {seen : List (Nat × Mutation)} (h : Live r kind n seen)
    {req : Request} (hdrop : req ≠ .drop n) (hbreak : ∀ e, req ≠ .breakWatches kind e) :
    ∃ new : List (Nat × Mutation), r.takenBy n req = new.map (.mutation ·.2) ∧
      Live (r.perform req) kind n (seen ++ new) := by
  obtain ⟨later, -, hstream, hwatched⟩ := h.holds
  have hsending : ((r.perform req).streams.get n).sending := by
    refine sending_perform hw h.sending fun other e he hn ↦ hbreak e ?_
    rw [he, hw.disjoint other kind n hn hwatched]
  by_cases hread : req = .read n
  · subst hread
    rw [takenBy, if_pos rfl]
    obtain ⟨x, hx, hfeed⟩ | ⟨e, he⟩ | ⟨hpending, hfeed⟩ := h.feed.read
    · exact ⟨[x], by rw [hx]; rfl, hfeed, hsending⟩
    · -- a fed stream holds no error
      have hfound : (r.read n).2 = (r.streams.get n).read.2 := rfl
      rw [he, hstream] at hfound
      cases later <;> cases hfound
    · exact ⟨[], by rw [hpending]; rfl, by rwa [List.append_nil], hsending⟩
  · rw [takenBy, if_neg hread]
    refine ⟨[], rfl, ?_, hsending⟩
    rw [List.append_nil]
    exact h.feed.perform hw hread hdrop

/-- **Until it is broken a watch yields what is recorded, from the front and nothing else.** -/
theorem Live.performAll (hw : Wired r) {seen : List (Nat × Mutation)} (h : Live r kind n seen)
    {reqs : List Request} (hdrop : .drop n ∉ reqs) (hbreak : ∀ e, .breakWatches kind e ∉ reqs) :
    ∃ new : List (Nat × Mutation), r.taken n reqs = new.map (.mutation ·.2) ∧
      Live (r.performAll reqs) kind n (seen ++ new) := by
  induction reqs generalizing r seen with
  | nil => exact ⟨[], rfl, by rwa [List.append_nil]⟩
  | cons req reqs ih =>
    have hkept : req ≠ .drop n := fun he ↦ hdrop (he ▸ List.mem_cons_self)
    have hunbroken : ∀ e, req ≠ .breakWatches kind e := fun e he ↦
      hbreak e (he ▸ List.mem_cons_self)
    obtain ⟨first, hfirst, hlive⟩ := h.perform hw hkept hunbroken
    obtain ⟨rest, hrest, hlive'⟩ := ih (hw.perform req) hlive
      (fun he ↦ hdrop (List.mem_cons_of_mem _ he))
      (fun e he ↦ hbreak e (List.mem_cons_of_mem _ he))
    refine ⟨first ++ rest, ?_, ?_⟩
    · rw [taken, hfirst, hrest, List.map_append]
    · rwa [List.append_assoc] at hlive'

/-! ### Watches that were broken -/

/-- Nothing feeds the stream any more; it holds `held`. -/
structure Closed (r : Registry) (n : Nat) (held : List Delivery) : Prop where
  stream : r.streams.get n = { queue := held, sending := false }
  unwatched : ∀ other, n ∉ (r.record other).watchers
  opened : n < r.streams.opened

/-- A break puts the error behind what a watch holds and closes it. -/
theorem Live.breakWatches (hw : Wired r) {seen : List (Nat × Mutation)} (h : Live r kind n seen)
    (e : TransportError) :
    Closed (r.breakWatches kind e) n (r.waiting n ++ [.failure e]) := by
  obtain ⟨later, -, hstream, hwatched⟩ := h.holds
  have hlive : n ∈ r.live kind := mem_live.2 ⟨hwatched, by rw [hstream]⟩
  constructor
  · rw [streams_breakWatches, Streams.get_closeAll (hw.nodup_live kind), if_pos hlive,
      Streams.get_sendAll (hw.nodup_live kind), if_pos hlive, waiting, hstream]
    rfl
  · intro other hn
    rw [record_breakWatches] at hn
    split at hn
    · cases hn
    · next hne => exact hne (hw.disjoint other kind n hn hwatched)
  · rw [streams_breakWatches, Streams.opened_closeAll, Streams.opened_sendAll]
    exact hw.opened kind n hwatched

/-- A change of other streams and of watches that are not this one. -/
theorem Closed.frame {held : List Delivery} (h : Closed r n held) {r' : Registry}
    (hs : r'.streams.get n = r.streams.get n) (ho : r.streams.opened ≤ r'.streams.opened)
    (hw : ∀ other, n ∈ (r'.record other).watchers → ∃ k, n ∈ (r.record k).watchers) :
    Closed r' n held where
  stream := hs.trans h.stream
  unwatched other hn := by
    obtain ⟨k, hk⟩ := hw other hn
    exact h.unwatched k hk
  opened := Nat.lt_of_lt_of_le h.opened ho

theorem Closed.alike {held : List Delivery} (h : Closed r n held) {r' : Registry}
    (ha : Alike r r') : Closed r' n held :=
  h.frame (by rw [ha.streams]) (Nat.le_of_eq (by rw [ha.streams]))
    fun other hn ↦ ⟨other, ha.watchers other ▸ hn⟩

/-- A request of anyone but its reader leaves a closed stream alone. -/
theorem Closed.perform_of_ne (hw : Wired r) {held : List Delivery} (h : Closed r n held)
    {req : Request} (hread : req ≠ .read n) (hdrop : req ≠ .drop n) :
    Closed (r.perform req) n held := by
  obtain ha | ⟨r₀, other, m, ha, hr⟩ | ⟨other, e, rfl⟩ | ⟨other, missed, hr⟩ | ⟨m, rfl | rfl⟩ :=
    r.perform_cases req
  · exact h.alike ha
  · have h₀ := h.alike ha
    have hlive : n ∉ r₀.live other := fun hn ↦ h₀.unwatched other (mem_live.1 hn).1
    rw [hr]
    refine h₀.frame ?_ ?_ fun k hn ↦ ?_
    · rw [streams_commit, Streams.get_sendAll ((hw.alike ha).nodup_live other), if_neg hlive]
    · exact Nat.le_of_eq (by rw [streams_commit, Streams.opened_sendAll])
    · rw [record_commit] at hn
      split at hn
      · exact absurd hn hlive
      · exact ⟨k, hn⟩
  · have hlive : n ∉ r.live other := fun hn ↦ h.unwatched other (mem_live.1 hn).1
    refine h.frame ?_ ?_ fun k hn ↦ ?_
    · rw [Registry.perform, streams_breakWatches, Streams.get_closeAll (hw.nodup_live other),
        if_neg hlive, Streams.get_sendAll (hw.nodup_live other), if_neg hlive]
    · exact Nat.le_of_eq (by
        rw [Registry.perform, streams_breakWatches, Streams.opened_closeAll,
          Streams.opened_sendAll])
    · rw [Registry.perform, record_breakWatches] at hn
      split at hn
      · cases hn
      · exact ⟨k, hn⟩
  · have hne : n ≠ r.streams.opened := Nat.ne_of_lt h.opened
    rw [hr]
    refine h.frame (Streams.get_openWith_of_ne hne _) (Nat.le_succ _) fun k hn ↦ ?_
    rw [record_openWatch] at hn
    split at hn
    · rcases List.mem_append.1 hn with hn | hn
      · exact ⟨other, hn⟩
      · exact absurd (List.mem_singleton.1 hn) hne
    · exact ⟨k, hn⟩
  · have hne : n ≠ m := fun he ↦ hread (by rw [he])
    exact h.frame (Streams.get_modify_of_ne hne _ _) (Nat.le_refl _) fun k hn ↦ ⟨k, hn⟩
  · have hne : n ≠ m := fun he ↦ hdrop (by rw [he])
    exact h.frame (Streams.get_modify_of_ne hne _ _) (Nat.le_refl _) fun k hn ↦ ⟨k, hn⟩

/-- **A closed stream yields what it holds, from the front, and receives nothing.** -/
theorem Closed.performAll (hw : Wired r) {held : List Delivery} (h : Closed r n held)
    {reqs : List Request} (hdrop : .drop n ∉ reqs) :
    r.taken n reqs ++ (r.performAll reqs).waiting n = held ∧
      ((r.performAll reqs).streams.get n).sending = false := by
  induction reqs generalizing r held with
  | nil =>
    rw [taken, performAll_nil, waiting, h.stream]
    exact ⟨rfl, rfl⟩
  | cons req reqs ih =>
    have hdrop' : .drop n ∉ reqs := fun he ↦ hdrop (List.mem_cons_of_mem _ he)
    rw [taken, performAll_cons, takenBy]
    by_cases hread : req = .read n
    · subst hread
      have hget : (r.read n).1.streams.get n = (r.streams.get n).read.1 :=
        Streams.get_modify_self r.streams n _
      have hfound : (r.read n).2 = (r.streams.get n).read.2 := rfl
      rw [h.stream] at hget hfound
      have hclosed : Closed (r.read n).1 n held.tail := by
        refine ⟨hget.trans ?_, h.unwatched, h.opened⟩
        cases held <;> rfl
      obtain ⟨hheld, hsending⟩ := ih (hw.perform (.read n)) hclosed hdrop'
      refine ⟨?_, hsending⟩
      rw [if_pos rfl, List.append_assoc, hheld, hfound]
      cases held <;> rfl
    · rw [if_neg hread, List.nil_append]
      exact ih (hw.perform req) (h.perform_of_ne hw hread fun he ↦ hdrop (he ▸ List.mem_cons_self))
        hdrop'

/-! ### Objects -/

/-- The payloads by key of a listing, each under the key that it decodes with. -/
def listed (payloads : List Json) : Std.ExtTreeMap Key Json :=
  payloads.foldl (fun held p ↦ (Mutation.added p).carry held) ∅

/-- What is listed by key is what is stored. -/
theorem listed_values {held : Std.ExtTreeMap Key Json}
    (h : ∀ key p, held[key]? = some p → ∃ o : Object, o.payload = p ∧ o.key = key) :
    listed (held.toList.map (·.2)) = held := by
  have hmem : ∀ x ∈ held.toList, held[x.1]? = some x.2 := fun x hx ↦
    Std.ExtTreeMap.mem_toList_iff_getElem?_eq_some.1 hx
  have hinsert : ∀ (entries : List (Key × Json)) (start : Std.ExtTreeMap Key Json),
      (∀ x ∈ entries, held[x.1]? = some x.2) →
      (entries.map (·.2)).foldl (fun held p ↦ (Mutation.added p).carry held) start =
        start.insertMany entries := by
    intro entries
    induction entries with
    | nil => exact fun start _ ↦ Std.ExtTreeMap.insertMany_nil.symm
    | cons x entries ih =>
      intro start hentries
      obtain ⟨o, ho, hkey⟩ := h x.1 x.2 (hentries x List.mem_cons_self)
      rw [List.map_cons, List.foldl_cons, ← ho, Mutation.carry_added, hkey, ho,
        ih _ fun y hy ↦ hentries y (List.mem_cons_of_mem _ hy)]
      exact Std.ExtTreeMap.insertMany_cons.symm
  rw [listed, hinsert _ ∅ hmem]
  exact Decode.insertMany_toList held

theorem carried_append (held : Std.ExtTreeMap Key Json) (first later : List (Nat × Mutation)) :
    carried held (first ++ later) = carried (carried held first) later :=
  List.foldl_append

/-- **Requests that inject nothing into a kind change its objects as they record.** -/
theorem Keyed.objects_performAll (h : Keyed r kind) {reqs : List Request}
    (hreqs : ∀ m, .inject kind m ∉ reqs) :
    ((r.performAll reqs).record kind).objects =
      carried (r.record kind).objects (r.additionsAll kind reqs) := by
  induction reqs generalizing r with
  | nil => rfl
  | cons req reqs ih =>
    have hreq : ∀ m, req ≠ .inject kind m := fun m he ↦ hreqs m (he ▸ List.mem_cons_self)
    have hfirst := h.perform hreq
    rw [performAll_cons, additionsAll, carried_append, ← hfirst.objects]
    exact ih hfirst.keyed fun m he ↦ hreqs m (List.mem_cons_of_mem _ he)

/-! ### Listing and then watching -/

/-- A watch that opens from a version that was given out yields what is recorded after it. -/
theorem UpTo.live {v : Nat} {seen : List (Nat × Mutation)} (h : UpTo r kind v seen)
    (hopen : (r.watch kind (some (toString v))).2 = .ok n) :
    Live (r.perform (.watch kind (some (toString v)))) kind n seen := by
  rw [Registry.perform]
  obtain ⟨e, he⟩ | ⟨missed, hopened, hmissed⟩ := r.watch_cases kind (some (toString v))
  · rw [he] at hopen
    cases hopen
  · obtain ⟨v', hv', rfl⟩ := hmissed _ rfl
    rw [hopened] at hopen ⊢
    obtain rfl : v' = v := parseVersion?_toString hv'
    obtain rfl : r.streams.opened = n := Except.ok.inj hopen
    refine ⟨h.feed, ?_⟩
    rw [openWatch, Streams.get_openWith_self]

/-- What was taken from a fed stream and what waits there is what was recorded for the kind. -/
theorem Live.yields (hw : Wired r) {v : Nat} {seen : List (Nat × Mutation)}
    (hu : UpTo r kind v seen) (h : Live r kind n seen) {reqs : List Request}
    (hdrop : .drop n ∉ reqs) (hbreak : ∀ e, .breakWatches kind e ∉ reqs) :
    r.taken n reqs ++ (r.performAll reqs).waiting n =
      ((r.performAll reqs).recordedAfter kind v).map (.mutation ·.2) ∧
    ∃ seen', Live (r.performAll reqs) kind n seen' := by
  obtain ⟨new, hnew, hlive⟩ := h.performAll hw hdrop hbreak
  obtain ⟨rest, hhistory, hstream, -⟩ := hlive.holds
  have hafter : (r.performAll reqs).recordedAfter kind v = new ++ rest := by
    rw [(hu.performAll reqs).history_eq, List.append_assoc] at hhistory
    exact List.append_cancel_left hhistory
  refine ⟨?_, _, hlive⟩
  rw [hnew, waiting, hstream, hafter, List.map_append]

/-- The reader of a fed stream in which nothing waits finds nothing now. -/
theorem Live.read_of_waiting_eq_nil {seen : List (Nat × Mutation)} (h : Live r kind n seen)
    (hempty : r.waiting n = []) : (r.read n).2 = .pending := by
  show ((r.streams.get n).read).2 = .pending
  rw [waiting] at hempty
  simp [Stream.read, hempty, h.sending]

/-- The reader finds what waits first, and leaves the rest. -/
theorem read_of_waiting_eq_cons {d : Delivery} {rest : List Delivery}
    (h : r.waiting n = d :: rest) :
    (r.read n).2 = .delivery d ∧ (r.read n).1.waiting n = rest := by
  rw [waiting] at h
  constructor
  · show ((r.streams.get n).read).2 = _
    simp [Stream.read, h]
  · show ((r.streams.modify n (·.read.1)).get n).queue = _
    simp [Stream.read, h]

/-- What was taken from a stream that was broken and what waits there is what was recorded for the
kind before the break, and then the error; then comes the end. -/
theorem Live.broken (hw : Wired r) {v : Nat} {seen : List (Nat × Mutation)}
    (hu : UpTo r kind v seen) (h : Live r kind n seen) {first rest : List Request}
    {e : TransportError} (hdrop : .drop n ∉ first ++ .breakWatches kind e :: rest)
    (hfirst : ∀ e', .breakWatches kind e' ∉ first) :
    let r' := r.performAll (first ++ .breakWatches kind e :: rest)
    r.taken n (first ++ .breakWatches kind e :: rest) ++ r'.waiting n =
      ((r.performAll first).recordedAfter kind v).map (.mutation ·.2) ++ [.failure e] ∧
    (r'.waiting n = [] → (r'.read n).2 = .ended) := by
  intro r'
  rw [List.mem_append, List.mem_cons, not_or, not_or] at hdrop
  obtain ⟨hyield, seen', hlive⟩ := h.yields hw hu hdrop.1 hfirst
  obtain ⟨hheld, hsending⟩ := (hlive.breakWatches (hw.performAll first) e).performAll
    ((hw.performAll first).breakWatches kind e) hdrop.2.2
  have hr : r' = ((r.performAll first).breakWatches kind e).performAll rest := by
    simp only [r', performAll_append, performAll_cons, Registry.perform]
  rw [← hr] at hheld hsending
  constructor
  · rw [taken_append, taken, takenBy, if_neg (by simp), List.nil_append, List.append_assoc]
    show _ ++ (taken ((r.performAll first).breakWatches kind e) n rest ++ _) = _
    rw [hheld, ← List.append_assoc, hyield]
  · intro hempty
    show ((r'.streams.get n).read).2 = .ended
    rw [waiting] at hempty
    simp [Stream.read, hempty, hsending]

/-- The last version is one up to which everything was recorded. -/
theorem Ordered.upTo (h : Ordered r kind) :
    UpTo r kind r.lastVersion (r.record kind).history where
  given := Nat.le_refl _
  le := h.bounded
  later := ⟨[], by rw [List.append_nil], nofun⟩

/-- What was recorded after the last version of a moment is what the requests since then add. -/
theorem Ordered.recordedAfter_performAll (h : Ordered r kind) (reqs : List Request) :
    (r.performAll reqs).recordedAfter kind r.lastVersion = r.additionsAll kind reqs := by
  have hhistory := r.history_performAll reqs kind
  rw [(h.upTo.performAll reqs).history_eq] at hhistory
  exact List.append_cancel_left hhistory

/-- **Listing and then watching has no gap and no repetition.** Take any run of any number of
clients, a list call in it that is answered, and a watch of the kind that is opened later from the
version that the call told. The mutations recorded for the kind after that version are those that
the requests since the list call added, in the order of their versions. As long as the reader keeps
the stream, at every moment

* until the watch is broken: what was taken from the stream and after it what waits there are these
  mutations; the reader finds nothing, rather than the end, when nothing waits; and if none of them
  was injected, carrying them out on what was listed gives the objects of the kind;
* after the watch was broken: what was taken and what waits are the mutations recorded after that
  version and before the break, and after them the error; when nothing waits the reader finds the
  end;
* in both cases: when something waits the reader finds the first of it, and the rest waits on. -/
theorem watch_complete (before middle later : List Request) (kind : Kind) (l : Listing) (n : Nat)
    (hlist : ((performAll {} before).list kind).2 = .ok l)
    (hopen : ((performAll {} (before ++ .list kind :: middle)).watch kind l.version?).2 = .ok n)
    (hdrop : .drop n ∉ later) :
    let v := (performAll {} before).lastVersion
    let w := performAll {} (before ++ .list kind :: (middle ++ [.watch kind l.version?]))
    let r := w.performAll later
    l.version? = some (toString v) ∧
    r.recordedAfter kind v = (performAll {} before).additionsAll kind
      (.list kind :: (middle ++ .watch kind l.version? :: later)) ∧
    (r.recordedAfter kind v).Pairwise (·.1 < ·.1) ∧
    ((∀ e, .breakWatches kind e ∉ later) →
      w.taken n later ++ r.waiting n = (r.recordedAfter kind v).map (.mutation ·.2) ∧
      (r.waiting n = [] → (r.read n).2 = .pending) ∧
      ((∀ m, .inject kind m ∉ middle ++ later) →
        carried (listed l.payloads) (r.recordedAfter kind v) = (r.record kind).objects)) ∧
    (∀ first e rest, later = first ++ .breakWatches kind e :: rest →
      (∀ e', .breakWatches kind e' ∉ first) →
      w.taken n later ++ r.waiting n =
        ((w.performAll first).recordedAfter kind v).map (.mutation ·.2) ++ [.failure e] ∧
      (r.waiting n = [] → (r.read n).2 = .ended)) ∧
    (∀ d rest, r.waiting n = d :: rest →
      (r.read n).2 = .delivery d ∧ (r.read n).1.waiting n = rest) := by
  intro v w r
  have hordered : Ordered (performAll {} before) kind := (ordered_empty kind).performAll before
  have hkeyed : Keyed (performAll {} before) kind := keyed_performAll (keyed_empty kind) before
  have hl := ((performAll {} before).list_spec kind).2.2 l hlist
  have hversion : l.version? = some (toString v) := by rw [hl]
  -- the version splits what is recorded at the list call, and the watch starts there
  have hsplit : UpTo (performAll {} (before ++ .list kind :: middle)) kind v
      ((performAll {} before).record kind).history := by
    rw [performAll_append]
    exact hordered.upTo.performAll _
  have hw : w = (performAll {} (before ++ .list kind :: middle)).perform
      (.watch kind (some (toString v))) := by
    simp only [w, performAll_append, performAll_cons, performAll_nil, hversion]
  have hlive : Live w kind n ((performAll {} before).record kind).history :=
    hw ▸ hsplit.live (hversion ▸ hopen)
  have hupto : UpTo w kind v ((performAll {} before).record kind).history := hw ▸ hsplit.perform _
  have hwired : Wired w := wired_empty.performAll _
  -- seen from the list call, all that comes later is one run
  have hr : r = (performAll {} before).performAll
      (.list kind :: (middle ++ .watch kind l.version? :: later)) := by
    simp only [r, w, performAll_append, performAll_cons, performAll_nil]
  have hadded : r.recordedAfter kind v = (performAll {} before).additionsAll kind
      (.list kind :: (middle ++ .watch kind l.version? :: later)) := by
    rw [hr]
    exact hordered.recordedAfter_performAll _
  have hascending : Ordered r kind := ((ordered_empty kind).performAll _).performAll later
  refine ⟨hversion, hadded, hascending.ascending.filter _, fun hbreak ↦ ?_, ?_,
    fun d rest ↦ read_of_waiting_eq_cons⟩
  · obtain ⟨hyield, seen, hlive'⟩ := hlive.yields hwired hupto hdrop hbreak
    refine ⟨hyield, hlive'.read_of_waiting_eq_nil, fun hinject ↦ ?_⟩
    rw [hadded, hl, listed_values hkeyed, ← hl, hr]
    refine (hkeyed.objects_performAll fun m hm ↦ hinject m ?_).symm
    simpa using hm
  · rintro first e rest rfl hfirst
    exact hlive.broken hwired hupto hdrop hfirst

/-- A version that was listed can be watched from, as long as versions fit 64 bits. -/
theorem exists_watch_of_list (r r' : Registry) (kind : Kind) {l : Listing}
    (hl : (r.list kind).2 = .ok l) (hv : r.lastVersion < UInt64.size) :
    ∃ n, (r'.watch kind l.version?).2 = .ok n := by
  rw [(r.list_spec kind).2.2 l hl, watch, parseVersion?_toString_of_lt hv]
  exact ⟨_, rfl⟩

/-- The kind of the runs below. -/
def nodeKind : Kind := ⟨"", "v1", "Node"⟩

/-- A payload with a name and nothing else. -/
def namedPayload (name : String) : Json :=
  .object [("metadata", .object [("name", .string name)])]

/-- Between the list call and the watch one object is updated and one of another kind is created;
the reader of the watch takes the update and leaves the deletion that follows. After a break it has
the error too, and no later write. -/
theorem watch_complete_of_sample :
    let before : List Request := [.create nodeKind (namedPayload "a")]
    let middle : List Request := [.update nodeKind (namedPayload "a"),
      .create ⟨"", "v1", "Pod"⟩ (namedPayload "p")]
    let later : List Request := [.read 0, .delete nodeKind ⟨none, "a"⟩]
    let broken : List Request := later ++ [.breakWatches nodeKind (.closed "gone"),
      .create nodeKind (namedPayload "b")]
    let w := performAll {} (before ++ .list nodeKind :: (middle ++ [.watch nodeKind (some "1")]))
    w.taken 0 later ++ (w.performAll later).waiting 0 =
      ((w.performAll later).recordedAfter nodeKind 1).map (.mutation ·.2) ∧
    carried (listed [stamp (.string "uid-1") 1 (namedPayload "a")])
      ((w.performAll later).recordedAfter nodeKind 1) =
        ((w.performAll later).record nodeKind).objects ∧
    w.taken 0 broken ++ (w.performAll broken).waiting 0 =
      ((w.performAll later).recordedAfter nodeKind 1).map (.mutation ·.2) ++
        [.failure (.closed "gone")] := by
  intro before middle later broken w
  have hkept := watch_complete before middle later nodeKind
    ⟨[stamp (.string "uid-1") 1 (namedPayload "a")], some "1"⟩ 0 (by decide) (by decide) (by decide)
  have hbroken := watch_complete before middle broken nodeKind
    ⟨[stamp (.string "uid-1") 1 (namedPayload "a")], some "1"⟩ 0 (by decide) (by decide) (by decide)
  obtain ⟨hyield, -, hobjects⟩ := hkept.2.2.2.1 (by simp [later])
  exact ⟨hyield, hobjects (by simp [middle, later]),
    (hbroken.2.2.2.2.1 later (.closed "gone") _ rfl (by simp [later])).1⟩

end Registry

end Informer
