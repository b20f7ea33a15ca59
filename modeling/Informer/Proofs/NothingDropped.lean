import Informer.Proofs.Convergence
import Informer.Proofs.PayloadIdentity
import Informer.Proofs.ReflectorLog

/-!
# Nothing of a registry is dropped

A loop reports and drops a payload that it cannot read, in a listing or in a watch. Beside a
registry it never has to. Listings have what is held and a watch yields what was recorded, all of
which keeps its identity (`Registry.Truthful`); so what the loop takes in is readable (`Clean`), and
of readable signals it reports no payload (`Entry.topic_of_mem_react`).

Unlike convergence this needs nothing of the forms of metadata or of versions, and only that nothing
was injected into the kind. The main result, `payloads_keep_identity`, is about all runs of requests
and all runs of a loop beside the registry, between whose steps other tasks may change the callbacks
in any way.
-/

namespace Informer

namespace Signal

/-- The payloads that a signal brings can be read. -/
def Readable : Signal → Prop
  | listed (.ok l) => ∀ p ∈ l.payloads, ∃ o, Object.ofPayload p = .ok o
  | delivered (.mutation m) => ∃ o, Object.ofPayload m.payload = .ok o
  | _ => True

theorem drops_of_readable {kind : Kind} {payloads : List Json}
    (h : ∀ p ∈ payloads, ∃ o, Object.ofPayload p = .ok o) : drops kind payloads = [] := by
  refine List.filterMap_eq_nil_iff.2 fun p hp ↦ ?_
  obtain ⟨o, ho⟩ := h p hp
  rw [ho]

/-- Of what can be read no payload is reported. -/
theorem topic_of_mem_reports {signal : Signal} (h : signal.Readable) {kind : Kind}
    {e : RuntimeEvent} (he : e ∈ signal.reports kind) : e.topic ≠ .notificationDropped := by
  unfold reports at he
  split at he
  · rw [drops_of_readable h] at he
    cases he
  · rw [List.mem_singleton.1 he]
    exact nofun
  · rw [List.mem_singleton.1 he]
    exact nofun
  · rw [drops_of_readable (List.forall_mem_singleton.2 h)] at he
    cases he
  · rw [List.mem_singleton.1 he]
    exact nofun
  · rw [List.mem_singleton.1 he]
    exact nofun
  · cases he

end Signal

namespace Entry

variable {e : Entry} {pace : Pace} {now : Nat} {signal : Signal}

/-- The stop signal ends the loop, which publishes nothing more. -/
theorem react_stopped (e : Entry) (pace : Pace) (now : Nat) :
    (e.react pace now .stopped).1.reflector = .ended ∧
      Effect.events (e.react pace now .stopped).2 = [] := by
  cases hr : e.reflector <;>
    simp [react, hr, endReflector, Reflector.stream?, Effect.events, Effect.event?]

/-- **Of a readable signal the loop reports no payload.** -/
theorem topic_of_mem_react (h : signal.Readable) {event : RuntimeEvent}
    (he : event ∈ Effect.events (e.react pace now signal).2) :
    event.topic ≠ .notificationDropped := by
  intro htopic
  by_cases hstop : signal = .stopped
  · rw [hstop, (react_stopped e pace now).2] at he
    cases he
  · by_cases hawaits : e.reflector.Awaits signal
    · obtain ⟨effect, heffect, hevent⟩ := List.mem_filterMap.1 he
      cases effect with
      | publish event' =>
        cases hevent
        -- such a report would be part of what the loop tells
        have htaken : e.Taken signal (e.react pace now signal) := taken_react hawaits
        have htold : Effect.publish event ∈ signal.tells e.kind := by
          rw [← htaken.told, List.mem_filter]
          exact ⟨heffect, by simp [Effect.isTold, htopic]⟩
        rcases List.mem_append.1 htold with htold | htold
        · obtain ⟨report, hreport, heq⟩ := List.mem_map.1 htold
          cases heq
          exact Signal.topic_of_mem_reports h hreport htopic
        · obtain ⟨call, -, heq⟩ := List.mem_map.1 htold
          cases heq
      | _ => cases hevent
    · rw [react_of_not_awaits hstop hawaits] at he
      cases he

end Entry

namespace Mirror

variable {w : Mirror} {kind : Kind}

/-! ### What the loop finds -/

/-- What the loop finds, and what is left of the system around it when it does. -/
structure Finding where
  left : Mirror
  pace : Pace
  now : Nat
  signal : Signal

/-- The step that the loop makes of what it finds. -/
def Finding.result (f : Finding) : Entry × List Effect :=
  f.left.entry.react f.pace f.now f.signal

/-- What the loop finds in an action. -/
def found? (w : Mirror) : Action → Option Finding
  | .hear pace now => match w.exchange with
    | .answered answer => some ⟨{ w with exchange := .quiet }, pace, now, answer⟩
    | _ => none
  | .read pace now => match w.entry.reflector.stream? with
    | some n => match w.remote.read n with
      | (remote, .delivery d) => some ⟨{ w with remote }, pace, now, .delivered d⟩
      | (remote, .ended) => some ⟨{ w with remote }, pace, now, .closed⟩
      | (_, .pending) => none
    | none => none
  | .prompt pace now p => some ⟨w, pace, now, p.signal⟩
  | _ => none

/-- The runtime events that an action makes the loop publish. -/
def published (w : Mirror) (a : Action) : List RuntimeEvent :=
  ((w.found? a).map fun f ↦ Effect.events f.result.2).getD []

/-- The ways in which the loop finds something. -/
inductive Finds (w : Mirror) : Action → Finding → Prop where
  | hears {pace : Pace} {now : Nat} {answer : Signal} (hx : w.exchange = .answered answer) :
    Finds w (.hear pace now) ⟨{ w with exchange := .quiet }, pace, now, answer⟩
  | reads {pace : Pace} {now n : Nat} {remote : Registry} {d : Delivery}
    (hn : w.entry.reflector.stream? = some n) (hread : w.remote.read n = (remote, .delivery d)) :
    Finds w (.read pace now) ⟨{ w with remote }, pace, now, .delivered d⟩
  | ends {pace : Pace} {now n : Nat} {remote : Registry}
    (hn : w.entry.reflector.stream? = some n) (hread : w.remote.read n = (remote, .ended)) :
    Finds w (.read pace now) ⟨{ w with remote }, pace, now, .closed⟩
  | prompted {pace : Pace} {now : Nat} {p : Prompt} :
    Finds w (.prompt pace now p) ⟨w, pace, now, p.signal⟩

theorem finds_of_found? {a : Action} {f : Finding} (h : w.found? a = some f) : w.Finds a f := by
  cases a with
  | request req => cases h
  | answer => cases h
  | hear pace now =>
    simp only [found?] at h
    split at h
    · next answer hx =>
      cases h
      exact .hears hx
    · cases h
  | read pace now =>
    simp only [found?] at h
    split at h
    · next n hn =>
      split at h
      · next hread =>
        cases h
        exact .reads hn hread
      · next hread =>
        cases h
        exact .ends hn hread
      · cases h
    · cases h
  | prompt pace now p =>
    cases h
    exact .prompted

/-- What the loop finds in an action is what the system goes on from. -/
theorem act_of_found? {a : Action} {f : Finding} (h : w.found? a = some f) :
    act w a = f.left.take f.result := by
  cases finds_of_found? h with
  | hears hx =>
    simp only [act, hx]
    rfl
  | reads hn hread | ends hn hread =>
    simp only [act, hn, hread]
    rfl
  | prompted => rfl

/-- What an action can do in which the loop finds nothing. -/
inductive Passes (w : Mirror) : Action → Mirror → Prop where
  /-- Some other party makes a request, which does not touch the stream of the loop. -/
  | requests {req : Registry.Request}
    (hother : ∀ n, w.stream? = some n → req ≠ .read n ∧ req ≠ .drop n) :
    Passes w (.request req) { w with remote := w.remote.perform req }
  | lists (hx : w.exchange = .asked .list) :
    Passes w .answer { w with
      remote := w.remote.perform (.list w.entry.kind)
      exchange := .answered (.listed (w.remote.list w.entry.kind).2) }
  | opens {version? : Option String} (hx : w.exchange = .asked (.watch version?)) :
    Passes w .answer { w with
      remote := w.remote.perform (.watch w.entry.kind version?)
      exchange := .answered (.opened (w.remote.watch w.entry.kind version?).2) }
  /-- The stream has nothing to read. -/
  | waits {pace : Pace} {now n : Nat} (hn : w.entry.reflector.stream? = some n)
    (hread : (w.remote.read n).2 = .pending) :
    Passes w (.read pace now) { w with remote := (w.remote.read n).1 }
  | nothing {a : Action} : Passes w a w

theorem passes_act {a : Action} (h : w.found? a = none) : w.Passes a (act w a) := by
  cases a with
  | request req =>
    rw [act]
    split
    · exact .nothing
    · next hholds =>
      refine .requests fun n hn ↦ ?_
      rw [hn, Option.any_some, decide_eq_true_eq] at hholds
      exact not_or.1 hholds
  | answer =>
    rcases hx : w.exchange with - | call | answer
    · rw [act, hx]
      exact .nothing
    · cases call with
      | list =>
        rw [act_answer_list hx]
        exact .lists hx
      | watch version? =>
        rw [act_answer_watch hx]
        exact .opens hx
    · rw [act, hx]
      exact .nothing
  | hear pace now =>
    rw [act]
    split
    · next hx => simp [found?, hx] at h
    · exact .nothing
  | read pace now =>
    rcases hn : w.entry.reflector.stream? with - | n
    · rw [act, hn]
      exact .nothing
    · rcases hread : w.remote.read n with ⟨remote, reading⟩
      cases reading with
      | pending =>
        have hwaits := @Passes.waits w pace now n hn (by rw [hread])
        simpa only [act, hn, hread] using hwaits
      | _ => simp [found?, hn, hread] at h
  | prompt pace now p => cases h

/-! ### Streams across a step -/

theorem stream?_of_following {n : Nat} (h : w.entry.reflector.stream? = some n) :
    w.stream? = some n := by
  unfold stream?
  cases hr : w.entry.reflector with
  | following m tick? =>
    rw [hr] at h
    exact h
  | _ =>
    rw [hr] at h
    cases h

theorem awaits_of_following {n : Nat} (h : w.entry.reflector.stream? = some n) (d : Delivery) :
    w.entry.reflector.Awaits (.delivered d) := by
  generalize w.entry.reflector = r at h
  cases r with
  | following m tick? => exact .delivered m tick? d
  | _ => cases h

/-- The loop holds the stream that it reads, or one that it is about to hear of. -/
theorem stream?_cases {n : Nat} (h : w.stream? = some n) :
    w.entry.reflector.stream? = some n ∨
      (w.entry.reflector = .opening ∧ w.exchange = .answered (.opened (.ok n))) := by
  unfold stream? at h
  split at h
  · next hr =>
    rw [hr]
    exact .inl h
  · next hr hx =>
    cases h
    exact .inr ⟨hr, hx⟩
  · cases h

theorem exchange_take_cases (w : Mirror) (result : Entry × List Effect) :
    (w.take result).exchange = w.exchange ∨ ∃ call, (w.take result).exchange = .asked call := by
  obtain ⟨e, effects⟩ := result
  have hfold : ∀ w : Mirror, (effects.foldl perform w).exchange = w.exchange ∨
      ∃ call, (effects.foldl perform w).exchange = .asked call := by
    induction effects with
    | nil => exact fun _ ↦ .inl rfl
    | cons x effects ih =>
      intro w
      obtain h | h := ih (w.perform x)
      · cases x with
        | call k call => exact .inr ⟨call, h⟩
        | _ => exact .inl h
      · exact .inr h
  exact hfold { w with entry := e }

/-- A step that lets go of no stream leaves the registry alone. -/
theorem remote_take_of_kept (w : Mirror) {result : Entry × List Effect}
    (h : result.2.filterMap (·.released?) = []) : (w.take result).remote = w.remote := by
  obtain ⟨e, effects⟩ := result
  have hfold : ∀ w : Mirror, (effects.foldl perform w).remote = w.remote := by
    induction effects with
    | nil => exact fun _ ↦ rfl
    | cons x effects ih =>
      intro w
      rw [List.filterMap_eq_nil_iff, List.forall_mem_cons] at h
      rw [List.foldl_cons, ih (List.filterMap_eq_nil_iff.2 h.2)]
      cases x with
      | release n => cases h.1
      | _ => rfl
  exact hfold { w with entry := e }

/-- **A loop that holds a stream after a step** took in no failure, left the registry alone, and
read the stream before or was told of it. -/
theorem of_stream?_take {pace : Pace} {now : Nat} {signal : Signal}
    (hawaits : w.entry.reflector.Awaits signal) {n : Nat}
    (h : (w.take (w.entry.react pace now signal)).stream? = some n) :
    (w.take (w.entry.react pace now signal)).remote = w.remote ∧ signal.breaks = false ∧
      (w.entry.reflector.stream? = some n ∨ signal = .opened (.ok n)) := by
  have htaken : w.entry.Taken signal (w.entry.react pace now signal) := Entry.taken_react hawaits
  have hreads : (w.entry.react pace now signal).1.reflector.stream? = some n := by
    obtain hreads | ⟨hopening, hx⟩ := stream?_cases h
    · rwa [entry_take] at hreads
    · -- the loop waits for an answer only when it has just taken in a listing, and asked
      rw [entry_take] at hopening
      have hleaves := htaken.leaves
      rw [hopening] at hleaves
      cases hleaves with
      | listed l =>
        have hlisting : w.entry.reflector = .listing := by
          generalize w.entry.reflector = r at hawaits
          cases hawaits
          rfl
        have hreact : w.entry.react pace now (.listed (.ok l)) = w.entry.takeListing l := by
          simp only [Entry.react, hlisting]
        rw [hreact, take_takeListing] at hx
        cases hx
  have hstreams := htaken.streams
  have hleaves := htaken.leaves
  rw [hreads] at hstreams
  generalize (w.entry.react pace now signal).1.reflector = r at hleaves hreads
  -- a stream that is read on is not let go of
  have hfollows : signal.stream? = none → ∀ m, w.entry.reflector.stream? = some m →
      (w.entry.react pace now signal).2.filterMap (·.released?) = [] ∧ m = n := by
    intro hnone m hm
    rw [hnone, hm] at hstreams
    have hsplit : [] ++ [m] = (w.entry.react pace now signal).2.filterMap (·.released?) ++ [n] := by
      simpa using hstreams
    obtain ⟨hkept, hmn⟩ := List.append_inj' hsplit rfl
    exact ⟨hkept.symm, List.head_eq_of_cons_eq hmn⟩
  cases hleaves with
  | opened stream tick? =>
    obtain rfl : stream = n := Option.some.inj hreads
    have hnone : w.entry.reflector.stream? = none := by
      generalize w.entry.reflector = r at hawaits
      cases hawaits
      rfl
    rw [hnone] at hstreams
    exact ⟨remote_take_of_kept w (List.self_eq_append_left.1 hstreams), rfl, .inr rfl⟩
  | mutation _ stream tick? | ticked stream tick? =>
    obtain ⟨m, hm⟩ : ∃ m, w.entry.reflector.stream? = some m := by
      generalize w.entry.reflector = r at hawaits
      cases hawaits
      exact ⟨_, rfl⟩
    obtain ⟨hkept, rfl⟩ := hfollows rfl m hm
    exact ⟨remote_take_of_kept w hkept, rfl, .inl hm⟩
  | _ => cases hreads

/-- The stream that the loop holds after a step is to yield recorded mutations, if that was so of
the one that it reads, unless it took in a failure, and is so of the one that it is told of. -/
theorem exists_feed_take {pace : Pace} {now : Nat} {signal : Signal}
    (hheld : signal.breaks = false ∨ ¬ w.entry.reflector.Awaits signal →
      ∀ n, w.stream? = some n → ∃ seen, w.remote.Feed kind n seen)
    (hopened : ∀ n, signal = .opened (.ok n) → w.entry.reflector = .opening →
      ∃ seen, w.remote.Feed kind n seen)
    {n : Nat} (hn : (w.take (w.entry.react pace now signal)).stream? = some n) :
    ∃ seen, (w.take (w.entry.react pace now signal)).remote.Feed kind n seen := by
  by_cases hstop : signal = .stopped
  · subst hstop
    have hended := (Entry.react_stopped w.entry pace now).1
    rw [← entry_take w] at hended
    rw [stream?, hended] at hn
    cases hn
  · by_cases hawaits : w.entry.reflector.Awaits signal
    · obtain ⟨hremote, hbreaks, hold | rfl⟩ := of_stream?_take hawaits hn
      · rw [hremote]
        exact hheld (.inl hbreaks) n (stream?_of_following hold)
      · rw [hremote]
        refine hopened n rfl ?_
        generalize w.entry.reflector = r at hawaits
        cases hawaits
        rfl
    · rw [Entry.react_of_not_awaits hstop hawaits] at hn ⊢
      exact hheld (.inr hawaits) n hn

/-! ### What every action keeps -/

/-- What a loop hears from a registry, and will hear, can be read. -/
structure Clean (kind : Kind) (w : Mirror) : Prop where
  kind_eq : w.entry.kind = kind
  truthful : w.remote.Truthful kind
  /-- The stream that the loop holds is to yield recorded mutations. -/
  stream : ∀ n, w.stream? = some n → ∃ seen, w.remote.Feed kind n seen
  answer : ∀ answer, w.exchange = .answered answer → answer.Readable

theorem clean_blank (kind : Kind) (backlog? : Option Nat) : Clean kind (blank kind backlog?) where
  kind_eq := rfl
  truthful := Registry.truthful_empty kind
  stream n hn := by cases hn
  answer answer hx := by cases hx

theorem Reaches.truthful {p : Registry.Request → Prop} {r r' : Registry} (h : Reaches p r r')
    (hp : ∀ m, ¬ p (.inject kind m)) (hr : r.Truthful kind) : r'.Truthful kind := by
  obtain ⟨reqs, rfl, hall⟩ := h
  induction reqs generalizing r with
  | nil => exact hr
  | cons req reqs ih =>
    obtain ⟨hreq, hrest⟩ := List.forall_mem_cons.1 hall
    refine ih (hr.perform ?_) hrest
    rintro m rfl
    exact hp m hreq

/-- What the reader of a watch finds was recorded, and can be read. -/
theorem readable_of_read {r : Registry} (hr : r.Truthful kind) {n : Nat}
    {seen : List (Nat × Mutation)} (h : r.Feed kind n seen) {d : Delivery}
    (hd : (r.read n).2 = .delivery d) : (Signal.delivered d).Readable := by
  obtain ⟨x, hx, hfeed⟩ | ⟨e, he⟩ | ⟨hpending, -⟩ := h.read
  · rw [hx] at hd
    cases hd
    have hmem : x ∈ (r.record kind).history := hfeed.recorded.subset (by simp)
    obtain ⟨key, o, ho, -⟩ := hr.recorded x hmem
    exact ⟨o, ho⟩
  · rw [he] at hd
    cases hd
    trivial
  · rw [hpending] at hd
    cases hd

/-- What the loop finds can be read. -/
theorem Clean.readable (h : Clean kind w) {a : Action} {f : Finding} (hf : w.Finds a f) :
    f.signal.Readable := by
  cases hf with
  | hears hx => exact h.answer _ hx
  | reads hn hread =>
    obtain ⟨seen, hfeed⟩ := h.stream _ (stream?_of_following hn)
    exact readable_of_read h.truthful hfeed (by rw [hread])
  | ends => trivial
  | @prompted pace now p => cases p <;> trivial

/-- A stream that is held when the loop makes its step, unless what it found is a failure. -/
theorem Clean.stream_left (h : Clean kind w) {a : Action} {f : Finding} (hf : w.Finds a f)
    (hkept : f.signal.breaks = false ∨ ¬ f.left.entry.reflector.Awaits f.signal) {n : Nat}
    (hn : f.left.stream? = some n) : ∃ seen, f.left.remote.Feed kind n seen := by
  cases hf with
  | hears hx =>
    obtain hold | ⟨-, hquiet⟩ := stream?_cases hn
    · exact h.stream n (stream?_of_following hold)
    · cases hquiet
  | @reads pace now m remote d hm hread =>
    obtain ⟨seen, hfeed⟩ := h.stream m (stream?_of_following hm)
    have hawaits := awaits_of_following hm d
    -- the loop holds no stream but the one that it reads
    obtain rfl : m = n :=
      Option.some.inj ((stream?_of_following (w := { w with remote }) hm).symm.trans hn)
    have hfound := hfeed.read
    rw [hread] at hfound
    obtain ⟨x, hx, hfeed'⟩ | ⟨e, he⟩ | ⟨hpending, -⟩ := hfound
    · exact ⟨_, hfeed'⟩
    · cases he
      obtain hbreaks | hnot := hkept
      · cases hbreaks
      · exact absurd hawaits hnot
    · cases hpending
  | ends hm hread =>
    obtain ⟨seen, hfeed⟩ := h.stream _ (stream?_of_following hm)
    have hfound := hfeed.read
    rw [hread] at hfound
    obtain ⟨x, hx, -⟩ | ⟨e, he⟩ | ⟨hpending, -⟩ := hfound
    · cases hx
    · cases he
    · cases hpending
  | prompted => exact h.stream n hn

/-- The stream that the loop is told of. -/
theorem Clean.opened_left (h : Clean kind w) {a : Action} {f : Finding} (hf : w.Finds a f)
    {n : Nat} (hopened : f.signal = .opened (.ok n)) (hr : f.left.entry.reflector = .opening) :
    ∃ seen, f.left.remote.Feed kind n seen := by
  cases hf with
  | @hears pace now answer hx =>
    obtain rfl : answer = .opened (.ok n) := hopened
    have hopening : w.entry.reflector = .opening := hr
    exact h.stream n (by rw [stream?, hopening, hx])
  | reads | ends => cases hopened
  | @prompted pace now p => cases p <;> cases hopened

/-- A request of anyone but the holder of the stream leaves it as it is. -/
theorem Clean.exists_feed_perform (h : Clean kind w) (req : Registry.Request) {n : Nat}
    (hn : w.stream? = some n) (hread : req ≠ .read n) (hdrop : req ≠ .drop n) :
    ∃ seen, (w.remote.perform req).Feed kind n seen := by
  obtain ⟨seen, hfeed⟩ := h.stream n hn
  exact ⟨seen, hfeed.perform h.truthful.wired hread hdrop⟩

/-- **The stream that the loop holds** is to yield recorded mutations after every action. -/
theorem Clean.stream_act (h : Clean kind w) (a : Action) {n : Nat}
    (hn : (act w a).stream? = some n) : ∃ seen, (act w a).remote.Feed kind n seen := by
  rcases hfound : w.found? a with - | f
  case some =>
    have hf := finds_of_found? hfound
    rw [act_of_found? hfound] at hn ⊢
    exact exists_feed_take (fun hkept _ ↦ h.stream_left hf hkept) (fun _ ↦ h.opened_left hf) hn
  have hpasses := passes_act hfound
  generalize act w a = w' at hpasses hn
  cases hpasses with
  | @requests req hother =>
    obtain ⟨hread, hdrop⟩ := hother n hn
    exact h.exists_feed_perform req hn hread hdrop
  | lists hx =>
    obtain hold | ⟨-, hanswered⟩ := stream?_cases hn
    · exact h.exists_feed_perform (.list _) (stream?_of_following hold) (by simp) (by simp)
    · cases hanswered
  | @opens version? hx =>
    obtain hold | ⟨-, hanswered⟩ := stream?_cases hn
    · exact h.exists_feed_perform (.watch _ _) (stream?_of_following hold) (by simp) (by simp)
    · have hkind := h.kind_eq
      subst hkind
      simp only [Exchange.answered.injEq, Signal.opened.injEq] at hanswered
      exact h.truthful.ordered.exists_feed hanswered
  | @waits pace now m hm hread =>
    obtain ⟨seen, hfeed⟩ := h.stream m (stream?_of_following hm)
    obtain rfl : m = n := Option.some.inj ((stream?_of_following hm).symm.trans hn)
    have hfound := hfeed.read
    rw [hread] at hfound
    obtain ⟨x, hx, -⟩ | ⟨e, he⟩ | ⟨-, hfeed'⟩ := hfound
    · cases hx
    · cases he
    · exact ⟨seen, hfeed'⟩
  | nothing => exact h.stream n hn

/-- The step of the loop leaves no answer to be heard that was not there before. -/
theorem answered_take {a : Action} {f : Finding} (hf : w.Finds a f) {answer : Signal}
    (hx : (f.left.take f.result).exchange = .answered answer) : w.exchange = .answered answer := by
  obtain hsame | ⟨call, hcall⟩ := exchange_take_cases f.left f.result
  · rw [hsame] at hx
    cases hf with
    | hears => cases hx
    | _ => exact hx
  · rw [hcall] at hx
    cases hx

/-- **The answer that the loop is to hear** can be read after every action. -/
theorem Clean.answer_act (h : Clean kind w) (a : Action) {answer : Signal}
    (hx : (act w a).exchange = .answered answer) : answer.Readable := by
  rcases hfound : w.found? a with - | f
  case some =>
    rw [act_of_found? hfound] at hx
    exact h.answer answer (answered_take (finds_of_found? hfound) hx)
  have hpasses := passes_act hfound
  generalize act w a = w' at hpasses hx
  cases hpasses with
  | lists =>
    cases hx
    rcases hl : (w.remote.list w.entry.kind).2 with e | l
    · trivial
    · intro p hp
      obtain ⟨key, ⟨o, ho, -⟩, -⟩ := (h.kind_eq.symm ▸ h.truthful.keyed).readsAs_of_list hl hp
      exact ⟨o, ho⟩
  | opens =>
    cases hx
    trivial
  | requests | waits | nothing => exact h.answer answer hx

/-- **Every action keeps a loop clean that injects nothing into its kind.** -/
theorem Clean.act (h : Clean kind w) {a : Action} (ha : ∀ m, a ≠ .request (.inject kind m)) :
    Clean kind (act w a) where
  kind_eq := (kind_act w a).trans h.kind_eq
  truthful := by
    refine (reaches_act w a).truthful (fun m hm ↦ ?_) h.truthful
    rcases hm with rfl | hown
    · exact ha m rfl
    · exact hown
  stream _ hn := h.stream_act a hn
  answer _ hx := h.answer_act a hx

/-! ### Whole runs -/

/-- The system after other tasks changed the callbacks. -/
def withCallbacks (w : Mirror) (callbacks : Fanout) : Mirror :=
  { w with entry := { w.entry with callbacks } }

/-- The runtime events that the loop publishes over some actions. Before each of them other tasks
leave some callbacks. -/
def publishedAll (w : Mirror) : List (Fanout × Action) → List RuntimeEvent
  | [] => []
  | (callbacks, a) :: rest =>
    (w.withCallbacks callbacks).published a ++
      ((w.withCallbacks callbacks).act a).publishedAll rest

theorem Clean.withCallbacks (h : Clean kind w) (callbacks : Fanout) :
    Clean kind (w.withCallbacks callbacks) :=
  ⟨h.kind_eq, h.truthful, h.stream, h.answer⟩

theorem Clean.topic_of_mem_published (h : Clean kind w) {a : Action} {e : RuntimeEvent}
    (he : e ∈ w.published a) : e.topic ≠ .notificationDropped := by
  rw [published] at he
  rcases hf : w.found? a with - | f
  · rw [hf] at he
    cases he
  · rw [hf] at he
    exact Entry.topic_of_mem_react (h.readable (finds_of_found? hf)) he

theorem Clean.topic_of_mem_publishedAll (h : Clean kind w) {steps : List (Fanout × Action)}
    (ha : ∀ callbacks m, (callbacks, .request (.inject kind m)) ∉ steps) {e : RuntimeEvent}
    (he : e ∈ w.publishedAll steps) : e.topic ≠ .notificationDropped := by
  induction steps generalizing w with
  | nil => cases he
  | cons step steps ih =>
    obtain ⟨callbacks, a⟩ := step
    have hclean := h.withCallbacks callbacks
    rcases List.mem_append.1 he with he | he
    · exact hclean.topic_of_mem_published he
    · refine ih (hclean.act ?_) (fun c m hm ↦ ha c m (List.mem_cons_of_mem _ hm)) he
      rintro m rfl
      exact ha callbacks m List.mem_cons_self

/-! ### The registry and the loop beside it -/

open Registry (Request ReadsAs HeldAs performAll nodeKind arrayPayload)

/-- **Payloads keep their identity**, over every run of requests with payloads of any form, accepted
or refused.

* What is held under a key is read as an object with that key; so is what is listed, which is what
  is held.
* Unless something was injected into the kind, what is recorded for watches was recorded by some
  request of the run, and is read as an object with the key under which it is held after this
  request, if it was added or modified, or was held before it, if it was deleted; the recorded state
  of a deletion is then the one that was held, with a new version.
* So a loop beside the registry reports no payload, unless something was injected into its kind,
  whatever else is requested and in whatever order requests, answers and its steps come. -/
theorem payloads_keep_identity :
    (∀ (reqs : List Request) (kind : Kind), let r := performAll {} reqs
      (∀ key p, r.get? kind key = some p → ReadsAs p key) ∧
      (∀ l, (r.list kind).2 = .ok l →
        ∀ p ∈ l.payloads, ∃ key, ReadsAs p key ∧ r.get? kind key = some p) ∧
      ((∀ m, .inject kind m ∉ reqs) → ∀ x ∈ (r.record kind).history,
        ∃ before req later key, reqs = before ++ req :: later ∧
          x.1 = (performAll {} before).lastVersion + 1 ∧ ReadsAs x.2.payload key ∧
          HeldAs (performAll {} before) req kind key x.2)) ∧
    ∀ (kind : Kind) (backlog? : Option Nat) (steps : List (Fanout × Action)),
      (∀ callbacks m, (callbacks, .request (.inject kind m)) ∉ steps) →
        ∀ e ∈ (blank kind backlog?).publishedAll steps, e.topic ≠ .notificationDropped := by
  refine ⟨fun reqs kind ↦ ⟨fun key p ↦ ?_, fun l hl p ↦ ?_, fun hinject x hx ↦ ?_⟩,
    fun kind backlog? steps ha e ↦ (clean_blank kind backlog?).topic_of_mem_publishedAll ha⟩
  · exact (Registry.keyed_performAll (Registry.keyed_empty kind) reqs).readsAs
  · exact (Registry.keyed_performAll (Registry.keyed_empty kind) reqs).readsAs_of_list hl
  · obtain ⟨before, req, later, rfl, hrec, hversion⟩ :=
      Registry.exists_recorded?_of_mem_history hx
    have hreq : ∀ m, req ≠ .inject kind m := by
      rintro m rfl
      exact hinject m (by simp)
    have hkeyed := Registry.keyed_performAll (Registry.keyed_empty kind) before
    obtain ⟨key, hreads, hheld⟩ := Registry.exists_heldAs_of_recorded? hkeyed hreq hrec
    exact ⟨before, req, later, key, rfl, hversion, hreads, hheld⟩

/-- An object is created with its metadata as an array, updated with them as an object, which
inherits no identifier, and deleted; the loop takes in all three. -/
theorem payloads_keep_identity_of_forms :
    let reqs : List Request := [.create nodeKind arrayPayload,
      .update nodeKind (.object [("metadata",
        .object [("name", .string "w"), ("namespace", .string "d")])]),
      .delete nodeKind ⟨some "d", "w"⟩]
    let pace : Pace := ⟨1, none⟩
    let actions : List Action := [.prompt pace 0 .start, .answer, .hear pace 0, .answer,
      .hear pace 0] ++ reqs.map .request ++ [.read pace 0, .read pace 0, .read pace 0]
    let steps : List (Fanout × Action) := actions.map fun a ↦ (⟨nodeKind, none, []⟩, a)
    ((performAll {} reqs).record nodeKind).history.length = 3 ∧
      (∀ x ∈ ((performAll {} reqs).record nodeKind).history, ∃ key, ReadsAs x.2.payload key) ∧
      (blank nodeKind none).publishedAll steps = [.cacheSynced nodeKind 0] ∧
      ∀ e ∈ (blank nodeKind none).publishedAll steps, e.topic ≠ .notificationDropped := by
  intro reqs pace actions steps
  refine ⟨by decide, fun x hx ↦ ?_, by decide, payloads_keep_identity.2 nodeKind none steps ?_⟩
  · obtain ⟨-, -, -, key, -, -, hreads, -⟩ :=
      (payloads_keep_identity.1 reqs nodeKind).2.2 (by simp [reqs]) x hx
    exact ⟨key, hreads⟩
  · simp [steps, actions, reqs]

end Mirror

end Informer
