import Informer.Proofs.RegistryHistory
import Informer.Proofs.Relist

/-!
# The cache converges

The list-and-watch loop of a kind beside the registry that it keeps in step with, and any number of
clients of that registry. Requests, answers, readings, ticks and pauses come in any order.

The invariant is `Faithful`. At every moment the store holds what the first recorded mutations of
the kind lead to; while the loop holds a watch, that watch is to yield the rest (`Registry.Feed`). A
re-listing keeps it although it passes over objects, because versions determine payloads
(`Registry.Sound.payload_eq`); opening the watch keeps it because the listed version says where the
rest begins (`Registry.UpTo.feed`). So the store and what the watch holds together make up the
objects of the registry (`Mirror.converges`).
-/

namespace Informer

/-! ### The loop beside its registry -/

/-- Where a call of the loop stands. -/
inductive Exchange where
  /-- There is none. -/
  | quiet
  /-- It was made. -/
  | asked (call : Call)
  /-- It was answered, and the loop has not taken the answer. -/
  | answered (answer : Signal)

/-- What the loop finds without asking. -/
inductive Prompt where
  /-- It runs for the first time. -/
  | start
  /-- The tick is due. -/
  | tick
  /-- The pause is over. -/
  | rest
  /-- The stop signal was given. -/
  | stop
deriving DecidableEq

/-- The signal for a prompt. -/
def Prompt.signal : Prompt → Signal
  | start => .started
  | tick => .ticked
  | rest => .rested
  | stop => .stopped

/-- A registry, the entry of a kind that is kept in step with it, and the call between the two. -/
structure Mirror where
  remote : Registry
  entry : Entry
  exchange : Exchange := .quiet

namespace Mirror

/-- What can happen. The delays of the loop and the time may be any. -/
inductive Action where
  /-- A client asks something of the registry. -/
  | request (req : Registry.Request)
  /-- The registry answers the call of the loop. -/
  | answer
  /-- The loop takes the answer. -/
  | hear (pace : Pace) (now : Nat)
  /-- The loop looks into its stream. -/
  | read (pace : Pace) (now : Nat)
  | prompt (pace : Pace) (now : Nat) (p : Prompt)

/-- The stream that the loop holds. -/
def stream? (w : Mirror) : Option Nat :=
  match w.entry.reflector, w.exchange with
  | .following n _, _ => some n
  | .opening, .answered (.opened (.ok n)) => some n
  | _, _ => none

/-- Carries out an effect of a step of the loop. -/
def perform (w : Mirror) : Effect → Mirror
  | .call _ call => { w with exchange := .asked call }
  | .release n => { w with remote := w.remote.drop n }
  | _ => w

/-- Takes over a step of the loop. -/
def take (w : Mirror) (result : Entry × List Effect) : Mirror :=
  result.2.foldl perform { w with entry := result.1 }

/-- One action. A stream is read and dropped by its holder only. -/
def act (w : Mirror) : Action → Mirror
  | .request req =>
    if w.stream?.any fun n ↦ req = .read n ∨ req = .drop n then w
    else { w with remote := w.remote.perform req }
  | .answer => match w.exchange with
    | .asked .list =>
      let (remote, result) := w.remote.list w.entry.kind
      { w with remote, exchange := .answered (.listed result) }
    | .asked (.watch version?) =>
      let (remote, result) := w.remote.watch w.entry.kind version?
      { w with remote, exchange := .answered (.opened result) }
    | _ => w
  | .hear pace now => match w.exchange with
    | .answered answer => { w with exchange := .quiet }.take (w.entry.react pace now answer)
    | _ => w
  | .read pace now => match w.entry.reflector.stream? with
    | some n => match w.remote.read n with
      | (remote, .delivery d) => { w with remote }.take (w.entry.react pace now (.delivered d))
      | (remote, .ended) => { w with remote }.take (w.entry.react pace now .closed)
      | (remote, .pending) => { w with remote }
    | none => w
  | .prompt pace now p => w.take (w.entry.react pace now p.signal)

/-- Some actions, one after another. -/
def actAll (w : Mirror) (actions : List Action) : Mirror := actions.foldl act w

/-- An empty registry and an entry whose loop has not run yet. -/
def blank (kind : Kind) (backlog? : Option Nat) : Mirror where
  remote := {}
  entry := .empty kind backlog?

@[simp] theorem actAll_nil (w : Mirror) : actAll w [] = w := rfl

@[simp] theorem actAll_cons (w : Mirror) (a : Action) (actions : List Action) :
    actAll w (a :: actions) = actAll (act w a) actions :=
  rfl

@[simp] theorem actAll_append (w : Mirror) (before after : List Action) :
    actAll w (before ++ after) = actAll (actAll w before) after :=
  List.foldl_append

/-! ### Effects within the cache -/

/-- An effect that the registry does not see. -/
def Inner (effect : Effect) : Prop := ∀ w : Mirror, w.perform effect = w

theorem inner_publish (e : RuntimeEvent) : Inner (.publish e) := fun _ ↦ rfl

theorem inner_wake (t : Task) : Inner (.wake t) := fun _ ↦ rfl

theorem take_of_inner {e : Entry} {effects : List Effect} (h : ∀ x ∈ effects, Inner x)
    (w : Mirror) : w.take (e, effects) = { w with entry := e } := by
  rw [take]
  generalize { w with entry := e } = w'
  induction effects generalizing w' with
  | nil => rfl
  | cons x effects ih =>
    rw [List.foldl_cons, h x List.mem_cons_self]
    exact ih (fun y hy ↦ h y (List.mem_cons_of_mem _ hy)) w'

theorem take_append_of_inner {e : Entry} {effects : List Effect} (h : ∀ x ∈ effects, Inner x)
    (w : Mirror) (later : List Effect) : w.take (e, effects ++ later) = w.take (e, later) := by
  have htake := take_of_inner h w (e := e)
  rw [take] at htake ⊢
  rw [List.foldl_append, htake, take]

/-- Queueing notifications has effects within the cache only. -/
theorem inner_dispatchAll {f : Fanout} {ns : List Notification} :
    ∀ x ∈ (f.dispatchAll ns).2, Inner x := by
  induction ns generalizing f with
  | nil => exact List.forall_mem_nil _
  | cons n ns ih =>
    intro x hx
    rcases List.mem_append.1 hx with hx | hx
    · obtain ⟨c, -, hc⟩ := List.mem_flatMap.1 hx
      unfold Fanout.pushEffects Fanout.warning at hc
      grind [inner_publish, inner_wake]
    · exact ih x hx

theorem inner_readPayloads {kind : Kind} {payloads : List Json} :
    ∀ x ∈ (Entry.readPayloads kind payloads).2, Inner x := by
  induction payloads with
  | nil => exact List.forall_mem_nil _
  | cons p rest ih =>
    intro x hx
    rcases ho : Object.ofPayload p with cause | o
    · simp only [Entry.readPayloads, ho] at hx
      rcases List.mem_cons.1 hx with rfl | hx
      · exact inner_publish _
      · exact ih x hx
    · simp only [Entry.readPayloads, ho] at hx
      exact ih x hx

/-! ### What an action asks of the registry -/

/-- Some requests of a sort lead from one registry to the other. -/
def Reaches (p : Registry.Request → Prop) (r r' : Registry) : Prop :=
  ∃ reqs : List Registry.Request, r' = reqs.foldl Registry.perform r ∧ ∀ req ∈ reqs, p req

theorem Reaches.refl {p : Registry.Request → Prop} (r : Registry) : Reaches p r r :=
  ⟨[], rfl, List.forall_mem_nil _⟩

theorem Reaches.cons {p : Registry.Request → Prop} {r r' : Registry} {q : Registry.Request}
    (hq : p q) (h : Reaches p (r.perform q) r') : Reaches p r r' := by
  obtain ⟨reqs, hr, hall⟩ := h
  exact ⟨q :: reqs, hr, List.forall_mem_cons.2 ⟨hq, hall⟩⟩

/-- A step of the loop touches the registry by letting go of streams, if at all. -/
theorem reaches_take {p : Registry.Request → Prop} (hdrop : ∀ n, p (.drop n)) (w : Mirror)
    (result : Entry × List Effect) : Reaches p w.remote (w.take result).remote := by
  obtain ⟨e, effects⟩ := result
  have hfold : ∀ w : Mirror, Reaches p w.remote (effects.foldl perform w).remote := by
    induction effects with
    | nil => exact fun w ↦ .refl w.remote
    | cons x effects ih =>
      intro w
      cases x with
      | release n => exact .cons (hdrop n) (ih _)
      | _ => exact ih _
  exact hfold { w with entry := e }

/-- What the loop asks of the registry: a list or a watch call, a reading, the end of a watch. -/
def Own : Registry.Request → Prop
  | .list _ | .watch _ _ | .read _ | .drop _ => True
  | _ => False

/-- **An action asks of the registry what a client requests in it, and what the loop asks.** -/
theorem reaches_act (w : Mirror) (a : Action) :
    Reaches (fun req ↦ a = .request req ∨ Own req) w.remote (act w a).remote := by
  cases a with
  | request req =>
    rw [act]
    split
    · exact .refl _
    · exact .cons (.inl rfl) (.refl _)
  | answer =>
    rw [act]
    split
    · exact .cons (q := .list _) (.inr trivial) (.refl _)
    · exact .cons (q := .watch _ _) (.inr trivial) (.refl _)
    · exact .refl _
  | hear pace now =>
    rw [act]
    split
    · exact reaches_take (fun _ ↦ .inr trivial) { w with exchange := .quiet } _
    · exact .refl _
  | read pace now =>
    rw [act]
    split
    · next n _ =>
      refine .cons (q := .read n) (.inr trivial) ?_
      rw [Registry.perform]
      split
      · next remote d hread =>
        rw [hread]
        exact reaches_take (fun _ ↦ .inr trivial) { w with remote } _
      · next remote hread =>
        rw [hread]
        exact reaches_take (fun _ ↦ .inr trivial) { w with remote } _
      · next remote hread =>
        rw [hread]
        exact .refl _
    · exact .refl _
  | prompt pace now p => exact reaches_take (fun _ ↦ .inr trivial) w _

/-! ### What the loop knows -/

/-- The store holds what the first recorded mutations of the kind lead to. -/
def Behind (kind : Kind) (w : Mirror) : Prop :=
  ∃ seen, seen <+: (w.remote.record kind).history ∧ w.entry.store.payloads = contents seen

/-- The store holds what the recorded mutations `seen` lead to, and the watch is to yield the
rest. -/
structure Reads (kind : Kind) (w : Mirror) (n : Nat) (seen : List (Nat × Mutation)) : Prop where
  held : w.entry.store.payloads = contents seen
  feed : w.remote.Feed kind n seen

/-- What is known at each point of the loop. -/
inductive Phase (kind : Kind) (w : Mirror) : Prop
  | apart (hr : w.entry.reflector = .fresh ∨ ∃ till, w.entry.reflector = .pausing till)
      (hx : w.exchange = .quiet) (behind : Behind kind w)
  | ended (hr : w.entry.reflector = .ended) (behind : Behind kind w)
  | listing (hr : w.entry.reflector = .listing) (hx : w.exchange = .asked .list)
      (behind : Behind kind w)
  | refused (e : TransportError) (hr : w.entry.reflector = .listing)
      (hx : w.exchange = .answered (.listed (.error e))) (behind : Behind kind w)
  /-- The listing is what the mutations up to its version lead to. -/
  | listed (v : Nat) (listed : List (Nat × Mutation)) (hr : w.entry.reflector = .listing)
      (hx : w.exchange = .answered (.listed (.ok
        ⟨(contents listed).toList.map (·.2), some (toString v)⟩)))
      (behind : Behind kind w) (upTo : w.remote.UpTo kind v listed)
  /-- The store is what was listed, and the watch is asked for from the version of the listing. -/
  | opening (v : Nat) (seen : List (Nat × Mutation)) (hr : w.entry.reflector = .opening)
      (hx : w.exchange = .asked (.watch (some (toString v))))
      (held : w.entry.store.payloads = contents seen) (upTo : w.remote.UpTo kind v seen)
  | denied (e : TransportError) (hr : w.entry.reflector = .opening)
      (hx : w.exchange = .answered (.opened (.error e))) (behind : Behind kind w)
  | opened (n : Nat) (seen : List (Nat × Mutation)) (hr : w.entry.reflector = .opening)
      (hx : w.exchange = .answered (.opened (.ok n))) (reads : Reads kind w n seen)
  | following (n : Nat) (tick? : Option Nat) (seen : List (Nat × Mutation))
      (hr : w.entry.reflector = .following n tick?) (hx : w.exchange = .quiet)
      (reads : Reads kind w n seen)

variable {kind : Kind} {w w' : Mirror}

/-- Whatever is asked of the registry, its history grows at the end only. -/
theorem Reaches.history {p : Registry.Request → Prop} {r r' : Registry} (h : Reaches p r r')
    (kind : Kind) : (r.record kind).history <+: (r'.record kind).history := by
  obtain ⟨reqs, rfl, -⟩ := h
  induction reqs generalizing r with
  | nil => exact List.prefix_rfl
  | cons req reqs ih =>
    obtain ⟨new, hnew, -⟩ := r.history_perform req kind
    exact (hnew ▸ List.prefix_append _ _).trans (ih (r := r.perform req))

theorem Reads.behind {n : Nat} {seen : List (Nat × Mutation)} (h : Reads kind w n seen) :
    Behind kind w :=
  ⟨seen, h.feed.recorded, h.held⟩

/-- At every point of the loop the store holds what the first recorded mutations lead to. -/
theorem Phase.behind (h : Phase kind w) : Behind kind w := by
  cases h with
  | opening v seen hr hx held upTo =>
    obtain ⟨later, hlater, -⟩ := upTo.later
    exact ⟨seen, hlater ▸ List.prefix_append _ _, held⟩
  | opened n seen hr hx reads => exact reads.behind
  | following n tick? seen hr hx reads => exact reads.behind
  | _ => assumption

/-- The history only grows and the store is the same. -/
theorem Behind.mono (h : Behind kind w)
    (hh : (w.remote.record kind).history <+: (w'.remote.record kind).history)
    (hs : w'.entry.store = w.entry.store) : Behind kind w' := by
  obtain ⟨seen, hseen, hheld⟩ := h
  exact ⟨seen, hseen.trans hh, hs ▸ hheld⟩

/-- A request of anyone who does not hold the stream of the loop. -/
theorem Phase.request (h : Phase kind w) (hw : w.remote.Wired) {req : Registry.Request}
    (hread : ∀ n, w.stream? = some n → req ≠ .read n ∧ req ≠ .drop n) :
    Phase kind { w with remote := w.remote.perform req } := by
  have hbehind : Behind kind { w with remote := w.remote.perform req } :=
    h.behind.mono ((Reaches.cons (p := fun _ ↦ True) trivial (.refl _)).history kind) rfl
  cases h with
  | apart hr hx _ => exact .apart hr hx hbehind
  | ended hr _ => exact .ended hr hbehind
  | listing hr hx _ => exact .listing hr hx hbehind
  | refused e hr hx _ => exact .refused e hr hx hbehind
  | listed v listed hr hx _ upTo => exact .listed v listed hr hx hbehind (upTo.perform req)
  | opening v seen hr hx held upTo => exact .opening v seen hr hx held (upTo.perform req)
  | denied e hr hx _ => exact .denied e hr hx hbehind
  | opened n seen hr hx reads =>
    obtain ⟨hr', hd⟩ := hread n (by rw [stream?, hr, hx])
    exact .opened n seen hr hx ⟨reads.held, reads.feed.perform hw hr' hd⟩
  | following n tick? seen hr hx reads =>
    obtain ⟨hr', hd⟩ := hread n (by rw [stream?, hr])
    exact .following n tick? seen hr hx ⟨reads.held, reads.feed.perform hw hr' hd⟩

/-! ### Answers of the registry -/

/-- The registry lists what the whole history leads to. -/
theorem upTo_lastVersion {r : Registry} (h : r.Sound kind) :
    r.UpTo kind r.lastVersion (r.record kind).history :=
  ⟨Nat.le_refl _, h.bounded, [], (List.append_nil _).symm, List.forall_mem_nil _⟩

theorem act_answer_list (hx : w.exchange = .asked .list) :
    act w .answer = { w with
      remote := w.remote.perform (.list w.entry.kind)
      exchange := .answered (.listed (w.remote.list w.entry.kind).2) } := by
  rw [act, hx]
  rfl

theorem act_answer_watch {version? : Option String} (hx : w.exchange = .asked (.watch version?)) :
    act w .answer = { w with
      remote := (w.remote.watch w.entry.kind version?).1
      exchange := .answered (.opened (w.remote.watch w.entry.kind version?).2) } := by
  rw [act, hx]

theorem Phase.answerList (hk : w.entry.kind = kind) (hs : w.remote.Sound kind)
    (hr : w.entry.reflector = .listing) (hx : w.exchange = .asked .list) (h : Behind kind w) :
    Phase kind (act w .answer) := by
  subst hk
  have hact := act_answer_list hx
  have hbehind : Behind w.entry.kind (act w .answer) :=
    h.mono ((reaches_act w .answer).history _) (by rw [hact])
  obtain ⟨-, -, hresult⟩ := w.remote.list_spec w.entry.kind
  rw [hact] at hbehind ⊢
  rcases hl : (w.remote.list w.entry.kind).2 with e | l
  · rw [hl] at hbehind
    exact .refused e hr rfl hbehind
  · rw [hl] at hbehind
    obtain rfl := hresult l hl
    have hupTo := (upTo_lastVersion hs).perform (.list w.entry.kind)
    rw [hs.objects] at hbehind ⊢
    exact .listed w.remote.lastVersion _ hr rfl hbehind hupTo

theorem Phase.answerWatch (hk : w.entry.kind = kind) {v : Nat} {seen : List (Nat × Mutation)}
    (hr : w.entry.reflector = .opening)
    (hx : w.exchange = .asked (.watch (some (toString v))))
    (held : w.entry.store.payloads = contents seen) (upTo : w.remote.UpTo kind v seen) :
    Phase kind (act w .answer) := by
  subst hk
  rw [act_answer_watch hx]
  obtain ⟨e, hwatch⟩ | ⟨missed, hwatch, hmissed⟩ :=
    w.remote.watch_cases w.entry.kind (some (toString v))
  · rw [hwatch]
    obtain ⟨later, hlater, -⟩ := upTo.later
    exact .denied e hr rfl ⟨seen, hlater ▸ List.prefix_append _ _, held⟩
  · obtain ⟨v', hv', rfl⟩ := hmissed _ rfl
    -- the version was handed out as a text and comes back as the number that it was
    obtain rfl : v' = v := Registry.parseVersion?_toString hv'
    rw [hwatch]
    exact .opened _ seen hr rfl ⟨held, upTo.feed⟩

theorem Phase.answer (h : Phase kind w) (hk : w.entry.kind = kind) (hs : w.remote.Sound kind) :
    Phase kind (act w .answer) := by
  rcases hexchange : w.exchange with - | call | answer
  · rw [act, hexchange]
    exact h
  · cases h with
    | listing hr hx behind => exact .answerList hk hs hr hx behind
    | opening v seen hr hx held upTo => exact .answerWatch hk hr hx held upTo
    | ended hr behind =>
      -- the loop made a call and ended, and does not hear the answer
      have hentry : (act w .answer).entry = w.entry := by
        rw [act]
        split <;> rfl
      exact .ended (hentry ▸ hr)
        (behind.mono ((reaches_act w .answer).history kind) (hentry ▸ rfl))
    | _ => simp_all
  · rw [act, hexchange]
    exact h

/-! ### Steps of the loop -/

/-- A pause lets go of the stream, if the loop holds one. -/
theorem take_pause (w : Mirror) (pace : Pace) (now : Nat) (report : RuntimeEvent) :
    (w.take (w.entry.pause pace now report)).entry =
        { w.entry with reflector := .pausing (now + pace.delay) } ∧
      (w.take (w.entry.pause pace now report)).exchange = w.exchange := by
  rw [Entry.pause]
  cases w.entry.reflector.stream? <;> exact ⟨rfl, rfl⟩

theorem Phase.pause (hx : w.exchange = .quiet) (h : Behind kind w) (pace : Pace) (now : Nat)
    (report : RuntimeEvent) : Phase kind (w.take (w.entry.pause pace now report)) := by
  have hreaches : Reaches (fun _ ↦ True) w.remote
      (w.take (w.entry.pause pace now report)).remote := reaches_take (fun _ ↦ trivial) w _
  obtain ⟨hentry, hexchange⟩ := w.take_pause pace now report
  refine .apart (.inr ⟨now + pace.delay, by rw [hentry]⟩) (hexchange.trans hx) ?_
  exact h.mono (hreaches.history kind) (by rw [hentry])

/-- The listed payloads take the place of those that were held. -/
theorem payloads_replace (hs : w.remote.Sound kind) (h : Behind kind w) {v : Nat}
    {listed : List (Nat × Mutation)} (upTo : w.remote.UpTo kind v listed) (k : Kind) :
    (w.entry.store.replace
      (Entry.readPayloads k ((contents listed).toList.map (·.2))).1).1.payloads =
        contents listed := by
  refine Store.payloads_replace (fun key p hp ↦ ?_) (fun key held o hheld ho hv ↦ ?_) k
  · obtain ⟨o, ho, hkey, -⟩ := of_getElem?_contents hp
    exact ⟨o, hkey, ho⟩
  · obtain ⟨seen, hseen, hpayloads⟩ := h
    obtain ⟨later, hlater, -⟩ := upTo.later
    have hold : (contents seen)[key]? = some held.payload := by
      rw [← hpayloads, Store.getElem?_payloads, hheld]
      rfl
    obtain ⟨-, -, -, x, hx, hxp⟩ := of_getElem?_contents hold
    obtain ⟨-, -, -, y, hy, hyp⟩ := of_getElem?_contents ho
    -- both payloads were recorded, the held one and the listed one
    have hy' : y ∈ (w.remote.record kind).history := hlater ▸ List.mem_append_left _ hy
    exact hs.payload_eq (hseen.subset hx) hy' hxp.symm hyp.symm hv

/-- Taking in a listing: the store is replaced, and the watch is asked for. -/
theorem take_takeListing (w : Mirror) (l : Listing) :
    w.take (w.entry.takeListing l) = {
      remote := w.remote
      entry := {
        (w.entry.replace (Entry.readPayloads w.entry.kind l.payloads).1).1 with
        synced := true, reflector := .opening }
      exchange := .asked (.watch l.version?) } := by
  have hnews : ∀ n, ∀ x ∈ (if w.entry.synced then [] else
      [Effect.publish (.cacheSynced w.entry.kind n)]), Inner x := by
    intro n x hx
    split at hx
    · cases hx
    · exact List.mem_singleton.1 hx ▸ inner_publish _
  rw [Entry.takeListing]
  refine (take_append_of_inner (fun x hx ↦ ?_) w _).trans rfl
  rcases List.mem_append.1 hx with hx | hx
  · rcases List.mem_append.1 hx with hx | hx
    · exact inner_readPayloads x hx
    · exact inner_dispatchAll x hx
  · exact hnews _ x hx

theorem Phase.hearListed (hs : w.remote.Sound kind) {v : Nat}
    {listed : List (Nat × Mutation)} (h : Behind kind w) (upTo : w.remote.UpTo kind v listed) :
    Phase kind (w.take (w.entry.takeListing
      ⟨(contents listed).toList.map (·.2), some (toString v)⟩)) := by
  rw [take_takeListing]
  exact .opening v listed rfl rfl (payloads_replace hs h upTo w.entry.kind) upTo

/-- The loop takes an answer. -/
theorem Phase.hear (h : Phase kind w) (hs : w.remote.Sound kind) (pace : Pace) (now : Nat) :
    Phase kind (act w (.hear pace now)) := by
  rcases hexchange : w.exchange with - | call | answer
  · rw [act, hexchange]
    exact h
  · rw [act, hexchange]
    exact h
  · cases h with
    | refused e hr hx behind =>
      rw [act, hx]
      simp only [Entry.react, hr]
      exact Phase.pause (w := { w with exchange := .quiet }) rfl behind pace now _
    | listed v listed hr hx behind upTo =>
      rw [act, hx]
      simp only [Entry.react, hr]
      exact Phase.hearListed (w := { w with exchange := .quiet }) hs behind upTo
    | denied e hr hx behind =>
      rw [act, hx]
      simp only [Entry.react, hr]
      exact Phase.pause (w := { w with exchange := .quiet }) rfl behind pace now _
    | opened n seen hr hx reads =>
      rw [act, hx]
      simp only [Entry.react, hr]
      exact .following n _ seen rfl rfl ⟨reads.held, reads.feed⟩
    | ended hr behind =>
      have hentry : (act w (.hear pace now)).entry = w.entry := by
        simp only [act, hexchange, Entry.react, hr]
        rfl
      exact .ended (hentry ▸ hr) (behind.mono ((reaches_act w _).history kind) (hentry ▸ rfl))
    | _ => simp_all

/-- Taking in a mutation changes the store and what the callbacks are to be given. -/
theorem takeMutation_spec (e : Entry) (m : Mutation) :
    (∀ x ∈ (e.takeMutation m).2, Inner x) ∧
      (e.takeMutation m).1.store = e.store.receive (.mutation m) ∧
      (e.takeMutation m).1.reflector = e.reflector ∧ (e.takeMutation m).1.kind = e.kind := by
  rw [Entry.takeMutation, Store.receive]
  rcases hchange : Entry.changeOf m with cause | change
  · exact ⟨fun x hx ↦ List.mem_singleton.1 hx ▸ inner_publish _, rfl, rfl, rfl⟩
  · exact ⟨fun x hx ↦ inner_dispatchAll x hx, rfl, rfl, rfl⟩

/-- The payloads after a mutation was taken in. -/
theorem payloads_receive (s : Store) (m : Mutation) :
    (s.receive (.mutation m)).payloads = m.carry s.payloads := by
  rw [Store.receive, Mutation.carry]
  rcases Entry.changeOf m with cause | change
  · rfl
  · cases change with
    | upsert o => exact Store.payloads_insert s o
    | remove o => exact Store.payloads_erase s o.key

/-- The loop reads a stream while it follows it, and only then. -/
theorem Phase.follows (h : Phase kind w) {n : Nat} (hn : w.entry.reflector.stream? = some n) :
    ∃ tick? seen, w.entry.reflector = .following n tick? ∧ w.exchange = .quiet ∧
      Reads kind w n seen := by
  cases h with
  | following m tick? seen hr hx reads =>
    obtain rfl : m = n := by simpa [hr, Reflector.stream?] using hn
    exact ⟨tick?, seen, hr, hx, reads⟩
  | apart hr hx behind => obtain hr | ⟨till, hr⟩ := hr <;> simp [hr, Reflector.stream?] at hn
  | _ => simp_all [Reflector.stream?]

/-- The loop looks into its stream. -/
theorem Phase.read (h : Phase kind w) (pace : Pace) (now : Nat) :
    Phase kind (act w (.read pace now)) := by
  rcases hstream : w.entry.reflector.stream? with - | n
  · rw [act, hstream]
    exact h
  · obtain ⟨tick?, seen, hr, hx, reads⟩ := h.follows hstream
    simp only [act, hstream]
    have hfound := reads.feed.read
    have hbehind : Behind kind { w with remote := (w.remote.read n).1 } :=
      reads.behind.mono ((Reaches.cons (p := fun _ ↦ True) (q := .read n) trivial
        (.refl _)).history kind) rfl
    rcases hread : w.remote.read n with ⟨remote, reading⟩
    rw [hread] at hfound hbehind
    obtain ⟨x, rfl, feed⟩ | ⟨e, rfl⟩ | ⟨rfl, feed⟩ := hfound
    · simp only [Entry.react, hr]
      obtain ⟨hinner, hstore, hreflector, -⟩ := takeMutation_spec w.entry x.2
      rw [take_of_inner hinner]
      refine .following n tick? (seen ++ [x]) (hreflector.trans hr) hx ⟨?_, feed⟩
      rw [hstore, payloads_receive, reads.held, contents_concat]
    · simp only [Entry.react, hr]
      exact Phase.pause (w := { w with remote }) hx hbehind pace now _
    · exact .following n tick? seen hr hx ⟨reads.held, feed⟩

/-- What the loop makes of a prompt: nothing, a list call, its end, or a resync. -/
theorem react_prompt_cases (e : Entry) (pace : Pace) (now : Nat) (p : Prompt) :
    e.react pace now p.signal = (e, []) ∨
    ((e.reflector = .fresh ∨ ∃ till, e.reflector = .pausing till) ∧
      e.react pace now p.signal = e.list) ∨
    e.react pace now p.signal = e.endReflector ∨
    ∃ n tick period, e.reflector = .following n (some tick) ∧
      e.react pace now p.signal = e.takeTick n tick period := by
  rcases hr : e.reflector with - | - | - | ⟨n, - | tick⟩ | till | -
  · cases p <;> simp [Entry.react, hr, Prompt.signal]
  · cases p <;> simp [Entry.react, hr, Prompt.signal]
  · cases p <;> simp [Entry.react, hr, Prompt.signal]
  · cases p <;> simp [Entry.react, hr, Prompt.signal]
  · cases p with
    | tick =>
      rcases hp : pace.resync? with - | period
      · exact .inl (by simp only [Entry.react, hr, Prompt.signal, hp])
      · exact .inr (.inr (.inr ⟨n, tick, period, rfl, by
          simp only [Entry.react, hr, Prompt.signal, hp]⟩))
    | _ => simp [Entry.react, hr, Prompt.signal]
  · cases p <;> simp [Entry.react, hr, Prompt.signal]
  · cases p <;> simp [Entry.react, hr, Prompt.signal]

/-- Something happens to the loop. -/
theorem Phase.prompt (h : Phase kind w) (pace : Pace) (now : Nat) (p : Prompt) :
    Phase kind (act w (.prompt pace now p)) := by
  have hreaches := (reaches_act w (.prompt pace now p)).history kind
  rw [act] at hreaches ⊢
  obtain hre | ⟨hr', hre⟩ | hre | ⟨n, tick, period, hr', hre⟩ :=
    react_prompt_cases w.entry pace now p
  · rw [hre]
    exact h
  · rw [hre]
    exact .listing rfl rfl h.behind
  · rw [hre] at hreaches ⊢
    have hentry : (w.take w.entry.endReflector).entry = { w.entry with reflector := .ended } := by
      rw [Entry.endReflector]
      cases w.entry.reflector.stream? <;> rfl
    exact .ended (by rw [hentry]) (h.behind.mono hreaches (by rw [hentry]))
  · rw [hre]
    have htake : w.take (w.entry.takeTick n tick period) = { w with
        entry := { w.entry.resync.1 with reflector := .following n (some (tick + period)) } } := by
      rw [Entry.takeTick]
      refine take_of_inner (fun x hx ↦ ?_) w
      rcases List.mem_append.1 hx with hx | hx
      · exact inner_dispatchAll x hx
      · exact List.mem_singleton.1 hx ▸ inner_publish _
    rw [htake]
    cases h with
    | following m tick? seen hr hx reads =>
      rw [hr'] at hr
      cases hr
      exact .following n _ seen rfl hx ⟨reads.held, reads.feed⟩
    | _ => simp_all

/-! ### Whole runs -/

/-- What every run keeps. -/
structure Faithful (kind : Kind) (w : Mirror) : Prop where
  kind_eq : w.entry.kind = kind
  wired : w.remote.Wired
  sound : w.remote.Sound kind
  phase : Phase kind w

/-- An action that leaves the history of a kind true. -/
def Action.Honest (kind : Kind) : Action → Prop
  | request req => req.Honest kind
  | _ => True

theorem faithful_blank (kind : Kind) (backlog? : Option Nat) :
    Faithful kind (blank kind backlog?) where
  kind_eq := rfl
  wired := Registry.wired_empty
  sound := Registry.sound_empty kind
  phase := by
    refine .apart (.inl rfl) rfl ⟨[], List.nil_prefix, ?_⟩
    ext1 key
    simp [Store.getElem?_payloads, contents, blank, Entry.empty]

theorem entry_take (w : Mirror) (result : Entry × List Effect) :
    (w.take result).entry = result.1 := by
  obtain ⟨e, effects⟩ := result
  have hfold : ∀ w : Mirror, (effects.foldl perform w).entry = w.entry := by
    induction effects with
    | nil => exact fun _ ↦ rfl
    | cons x effects ih =>
      intro w
      rw [List.foldl_cons, ih]
      cases x <;> rfl
  exact hfold { w with entry := e }

theorem kind_react (e : Entry) (pace : Pace) (now : Nat) (signal : Signal) :
    (e.react pace now signal).1.kind = e.kind := by
  unfold Entry.react
  split <;> try rfl
  · exact (takeMutation_spec e _).2.2.2
  · split <;> rfl

theorem kind_act (w : Mirror) (a : Action) : (act w a).entry.kind = w.entry.kind := by
  cases a with
  | request req =>
    rw [act]
    split <;> rfl
  | answer =>
    rw [act]
    split <;> rfl
  | hear pace now =>
    rw [act]
    split
    · rw [entry_take]
      exact kind_react w.entry pace now _
    · rfl
  | read pace now =>
    rw [act]
    split
    · split
      · rw [entry_take]
        exact kind_react w.entry pace now _
      · rw [entry_take]
        exact kind_react w.entry pace now _
      · rfl
    · rfl
  | prompt pace now p =>
    rw [act, entry_take]
    exact kind_react w.entry pace now _

theorem Phase.act (h : Phase kind w) (hk : w.entry.kind = kind) (hw : w.remote.Wired)
    (hs : w.remote.Sound kind) (a : Action) : Phase kind (act w a) := by
  cases a with
  | request req =>
    rw [Mirror.act]
    split
    · exact h
    · next hholds =>
      refine h.request hw fun n hn ↦ ?_
      rw [hn, Option.any_some, decide_eq_true_eq] at hholds
      exact not_or.1 hholds
  | answer => exact h.answer hk hs
  | hear pace now => exact h.hear hs pace now
  | read pace now => exact h.read pace now
  | prompt pace now p => exact h.prompt pace now p

/-- Honest requests keep the registry wired and sound. -/
theorem Reaches.sound {p : Registry.Request → Prop} {r r' : Registry} (h : Reaches p r r')
    (hp : ∀ req, p req → req.Honest kind) (hw : r.Wired) (hs : r.Sound kind) :
    r'.Wired ∧ r'.Sound kind := by
  obtain ⟨reqs, rfl, hall⟩ := h
  induction reqs generalizing r with
  | nil => exact ⟨hw, hs⟩
  | cons req reqs ih =>
    obtain ⟨hreq, hrest⟩ := List.forall_mem_cons.1 hall
    exact ih (hw.perform req) (hs.perform (hp req hreq)) hrest

/-- **Every action of the loop and every honest request keeps the loop faithful.** -/
theorem Faithful.act (h : Faithful kind w) {a : Action} (ha : a.Honest kind) :
    Faithful kind (act w a) := by
  have hhonest : ∀ req, a = .request req ∨ Own req → req.Honest kind := by
    rintro req (rfl | hown)
    · exact ha
    · cases req <;> first | exact trivial | cases hown
  obtain ⟨hwired, hsound⟩ := (reaches_act w a).sound hhonest h.wired h.sound
  exact ⟨(kind_act w a).trans h.kind_eq, hwired, hsound,
    h.phase.act h.kind_eq h.wired h.sound a⟩

theorem Faithful.actAll (h : Faithful kind w) {actions : List Action}
    (ha : ∀ a ∈ actions, a.Honest kind) : Faithful kind (actAll w actions) := by
  induction actions generalizing w with
  | nil => exact h
  | cons a actions ih =>
    obtain ⟨hfirst, hrest⟩ := List.forall_mem_cons.1 ha
    exact ih (h.act hfirst) hrest

/-- While the loop holds a stream, that stream is to yield the rest of the history. -/
theorem Phase.reads (h : Phase kind w) {n : Nat} (hn : w.stream? = some n) :
    ∃ seen, Reads kind w n seen := by
  cases h with
  | opened m seen hr hx reads =>
    rw [stream?, hr, hx] at hn
    exact ⟨seen, Option.some.inj hn ▸ reads⟩
  | following m tick? seen hr hx reads =>
    rw [stream?, hr] at hn
    exact ⟨seen, Option.some.inj hn ▸ reads⟩
  | apart hr hx behind => obtain hr | ⟨till, hr⟩ := hr <;> simp [stream?, hr] at hn
  | _ => simp_all [stream?]

/-! ### Unbroken streams -/

theorem stream?_pause (w : Mirror) (pace : Pace) (now : Nat) (report : RuntimeEvent) :
    (w.take (w.entry.pause pace now report)).stream? = none := by
  rw [stream?, (w.take_pause pace now report).1]

/-- Taking an answer brings no stream that the loop did not hold. -/
theorem stream?_hear (h : Phase kind w) {pace : Pace} {now n : Nat}
    (hn : (act w (.hear pace now)).stream? = some n) : w.stream? = some n := by
  rw [act] at hn
  split at hn
  · next answer hx =>
    cases h with
    | refused e hr hx' behind =>
      obtain rfl := Exchange.answered.inj (hx.symm.trans hx')
      simp only [Entry.react, hr] at hn
      rw [stream?_pause { w with exchange := .quiet }] at hn
      cases hn
    | denied e hr hx' behind =>
      obtain rfl := Exchange.answered.inj (hx.symm.trans hx')
      simp only [Entry.react, hr] at hn
      rw [stream?_pause { w with exchange := .quiet }] at hn
      cases hn
    | listed v listed hr hx' behind upTo =>
      obtain rfl := Exchange.answered.inj (hx.symm.trans hx')
      simp only [Entry.react, hr] at hn
      rw [take_takeListing { w with exchange := .quiet }] at hn
      cases hn
    | opened m seen hr hx' reads =>
      obtain rfl := Exchange.answered.inj (hx.symm.trans hx')
      simp only [Entry.react, hr] at hn
      rw [stream?, hr, hx]
      exact hn
    | ended hr behind =>
      simp only [Entry.react, hr] at hn
      rw [take_of_inner (List.forall_mem_nil _), stream?, hr] at hn
      cases hn
    | _ => simp_all
  · exact hn

/-- Looking into a stream brings no other. -/
theorem stream?_read {pace : Pace} {now n : Nat} (hn : (act w (.read pace now)).stream? = some n) :
    w.stream? = some n := by
  rw [act] at hn
  split at hn
  · next m hm =>
    obtain ⟨tick?, hr⟩ : ∃ tick?, w.entry.reflector = .following m tick? := by
      rcases hr : w.entry.reflector with - | - | - | ⟨m', tick?⟩ | till | - <;>
        simp_all [Reflector.stream?]
    have hheld : w.stream? = some m := by rw [stream?, hr]
    split at hn
    · next remote d hread =>
      cases d with
      | mutation x =>
        simp only [Entry.react, hr] at hn
        obtain ⟨hinner, -, hreflector, -⟩ := takeMutation_spec w.entry x
        rw [take_of_inner hinner, stream?, hreflector, hr] at hn
        exact hheld.trans hn
      | failure e =>
        simp only [Entry.react, hr] at hn
        rw [stream?_pause { w with remote }] at hn
        cases hn
    · next remote hread =>
      simp only [Entry.react, hr] at hn
      rw [stream?_pause { w with remote }] at hn
      cases hn
    · exact hn
  · exact hn

/-- A prompt brings no stream. -/
theorem stream?_prompt {pace : Pace} {now n : Nat} {p : Prompt}
    (hn : (act w (.prompt pace now p)).stream? = some n) : w.stream? = some n := by
  rw [act] at hn
  obtain hre | ⟨-, hre⟩ | hre | ⟨m, tick, period, hr, hre⟩ := react_prompt_cases w.entry pace now p
  · rw [hre] at hn
    exact hn
  · rw [hre] at hn
    cases hn
  · have hentry := entry_take w w.entry.endReflector
    rw [hre, stream?, hentry] at hn
    cases hn
  · have hentry := entry_take w (w.entry.takeTick m tick period)
    rw [hre, stream?, hentry] at hn
    rw [stream?, hr]
    exact hn

/-- The answer to a watch call brings a new stream, which is not broken; nothing else that the
registry answers brings any. -/
theorem stream?_answer {n : Nat} (hn : (act w .answer).stream? = some n) :
    w.stream? = some n ∨ ((act w .answer).remote.streams.get n).sending := by
  rcases hx : w.exchange with - | (- | version?) | answer
  · rw [act, hx] at hn
    exact .inl hn
  · rw [act_answer_list hx] at hn
    rcases hr : w.entry.reflector with - | - | - | ⟨m, tick?⟩ | till | - <;>
      simp_all [stream?]
  · rw [act_answer_watch hx] at hn ⊢
    obtain ⟨e, hwatch⟩ | ⟨missed, hwatch, -⟩ := w.remote.watch_cases w.entry.kind version?
    · rw [hwatch] at hn
      rcases hr : w.entry.reflector with - | - | - | ⟨m, tick?⟩ | till | - <;>
        simp_all [stream?]
    · rw [hwatch] at hn ⊢
      rcases hr : w.entry.reflector with - | - | - | ⟨m, tick?⟩ | till | - <;>
        simp only [stream?, hr, Option.some.injEq, reduceCtorEq] at hn
      · obtain rfl := hn
        exact .inr (by simp only [Registry.openWatch, Streams.get_openWith_self])
      · exact .inl (by rw [stream?, hr, hn])
  · rw [act, hx] at hn
    exact .inl hn

/-- Whatever the loop asks, the remote side of a stream stays. -/
theorem Reaches.sending {r r' : Registry} (h : Reaches Own r r') (hw : r.Wired) {n : Nat}
    (hn : (r.streams.get n).sending) : (r'.streams.get n).sending := by
  obtain ⟨reqs, rfl, hall⟩ := h
  induction reqs generalizing r with
  | nil => exact hn
  | cons req reqs ih =>
    obtain ⟨hreq, hrest⟩ := List.forall_mem_cons.1 hall
    refine ih (hw.perform req) (Registry.sending_perform hw hn ?_) hrest
    rintro k e rfl
    cases hreq

/-- A stream that the loop holds loses its remote side with a break of the watches of the kind
only. -/
theorem Faithful.sending_act (h : Faithful kind w) {a : Action}
    (ha : ∀ e, a ≠ .request (.breakWatches kind e)) {n : Nat}
    (hold : w.stream? = some n → (w.remote.streams.get n).sending)
    (hn : (Mirror.act w a).stream? = some n) : ((Mirror.act w a).remote.streams.get n).sending := by
  have hown : (∀ req, a ≠ .request req) → (w.remote.streams.get n).sending →
      ((Mirror.act w a).remote.streams.get n).sending := by
    intro hreq
    obtain ⟨reqs, hreqs, hall⟩ := reaches_act w a
    exact Reaches.sending ⟨reqs, hreqs, fun req hr ↦ (hall req hr).resolve_left (hreq req)⟩ h.wired
  cases a with
  | request req =>
    have hheld : w.stream? = some n := by
      rw [Mirror.act] at hn
      split at hn <;> exact hn
    rw [Mirror.act]
    split
    · exact hold hheld
    · refine Registry.sending_perform h.wired (hold hheld) ?_
      rintro other e rfl hwatched
      obtain ⟨seen, reads⟩ := h.phase.reads hheld
      -- the watch belongs to one kind only, so a break that reaches it is one of that kind
      cases reads.feed with
      | live later history stream watched =>
        obtain rfl := h.wired.disjoint kind other n watched hwatched
        exact ha e rfl
      | broken later missed e' history stream unwatched => exact unwatched other hwatched
  | answer =>
    rcases stream?_answer hn with hheld | hnew
    · exact hown (fun _ ↦ nofun) (hold hheld)
    · exact hnew
  | hear pace now => exact hown (fun _ ↦ nofun) (hold (stream?_hear h.phase hn))
  | read pace now => exact hown (fun _ ↦ nofun) (hold (stream?_read hn))
  | prompt pace now p => exact hown (fun _ ↦ nofun) (hold (stream?_prompt hn))

/-- A stream that came to the loop during a run without a break has its remote side. -/
theorem Faithful.sending_actAll (h : Faithful kind w) {actions : List Action}
    (ha : ∀ a ∈ actions, a.Honest kind)
    (hbreak : ∀ e, .request (.breakWatches kind e) ∉ actions) {n : Nat}
    (hold : w.stream? = some n → (w.remote.streams.get n).sending)
    (hn : (Mirror.actAll w actions).stream? = some n) :
    ((Mirror.actAll w actions).remote.streams.get n).sending := by
  induction actions generalizing w with
  | nil => exact hold hn
  | cons a actions ih =>
    obtain ⟨hfirst, hrest⟩ := List.forall_mem_cons.1 ha
    have hne : ∀ e, a ≠ .request (.breakWatches kind e) :=
      fun e he ↦ hbreak e (he ▸ List.mem_cons_self)
    exact ih (h.act hfirst) hrest (fun e he ↦ hbreak e (List.mem_cons_of_mem _ he))
      (h.sending_act hne hold) hn

/-! ### Convergence -/

theorem payloads_foldl_receive (later : List (Nat × Mutation)) (s : Store) :
    ((later.map fun x ↦ Delivery.mutation x.2).foldl Store.receive s).payloads =
      later.foldl (fun held x ↦ x.2.carry held) s.payloads := by
  induction later generalizing s with
  | nil => rfl
  | cons x later ih => rw [List.map_cons, List.foldl_cons, ih, payloads_receive, List.foldl_cons]

/-- **The cache converges.** Over every run of the loop of a kind, beside any number of clients who
write payloads with an object for their metadata, break watches and make list calls fail, in any
order:

* whenever the loop holds a stream whose remote side is there, applying what waits in the stream to
  the store gives exactly the objects of the kind, the same payloads under the same keys;
* so when nothing waits, the held payloads are what a list call answers with;
* and the remote side of the stream is there if the watches of the kind were not broken since some
  moment at which the loop did not hold the stream. -/
theorem converges (kind : Kind) (backlog? : Option Nat) (actions : List Action)
    (h : ∀ a ∈ actions, a.Honest kind) (n : Nat) :
    let w := actAll (blank kind backlog?) actions
    let stream := w.remote.streams.get n
    w.stream? = some n →
      (stream.sending →
        (stream.queue.foldl Store.receive w.entry.store).payloads = (w.remote.record kind).objects ∧
        (stream.queue = [] → ∀ l, (w.remote.list kind).2 = .ok l →
          w.entry.store.toList.map (·.payload) = l.payloads)) ∧
      ∀ before after, actions = before ++ after →
        (actAll (blank kind backlog?) before).stream? ≠ some n →
        (∀ e, .request (.breakWatches kind e) ∉ after) → stream.sending := by
  intro w stream hn
  have hfaithful : Faithful kind w := (faithful_blank kind backlog?).actAll h
  obtain ⟨seen, reads⟩ := hfaithful.phase.reads hn
  refine ⟨fun hsending ↦ ?_, ?_⟩
  · have hobjects : (stream.queue.foldl Store.receive w.entry.store).payloads =
        (w.remote.record kind).objects := by
      cases reads.feed with
      | live later history hstream watched =>
        rw [hfaithful.sound.objects, history, contents_append, ← reads.held]
        simp only [stream, hstream]
        exact payloads_foldl_receive later w.entry.store
      | broken later missed e history hstream unwatched =>
        simp only [stream, hstream] at hsending
        cases hsending
    refine ⟨hobjects, fun hqueue l hl ↦ ?_⟩
    rw [hqueue] at hobjects
    rw [(w.remote.list_spec kind).2.2 l hl, Store.map_payload_toList, ← hobjects]
    rfl
  · rintro before after rfl hbefore hbreak
    obtain ⟨hfirst, hlast⟩ := List.forall_mem_append.1 h
    have hmiddle := (faithful_blank kind backlog?).actAll hfirst
    have hsending := hmiddle.sending_actAll hlast hbreak (n := n) (fun hheld ↦ absurd hheld hbefore)
    rw [← actAll_append] at hsending
    exact hsending hn

/-- The kind of the run below. -/
def sampleKind : Kind := ⟨"", "v1", "Node"⟩

/-- A run in which the watch of the loop is broken while it holds a mutation, and in which the
object is deleted and created again before the loop lists anew. -/
def brokenRun : List Action :=
  let pace : Pace := ⟨5, none⟩
  let payload : Json := .object [("metadata", .object [("name", .string "a")])]
  [.request (.create sampleKind payload), .prompt pace 0 .start,
    .answer, .hear pace 0, .answer, .hear pace 0,
    .request (.update sampleKind payload), .request (.breakWatches sampleKind (.closed "gone")),
    .read pace 0, .read pace 0,
    .request (.delete sampleKind ⟨none, "a"⟩), .request (.create sampleKind payload),
    .prompt pace 5 .rest, .answer, .hear pace 5, .answer, .hear pace 5,
    .request (.update sampleKind payload)]

theorem honest_brokenRun : ∀ a ∈ brokenRun, a.Honest sampleKind := by
  have hstandard : ∀ block, Registry.Standard (.object [("metadata", .object block)]) :=
    fun block ↦ ⟨block, rfl⟩
  simp [brokenRun, Action.Honest, Registry.Request.Honest, hstandard]

/-- After the break the loop lists anew and holds a second stream, with an update waiting in it. -/
theorem converges_after_break :
    (actAll (blank sampleKind none) brokenRun).stream? = some 1 ∧
      (((actAll (blank sampleKind none) brokenRun).remote.streams.get 1).queue.foldl Store.receive
        (actAll (blank sampleKind none) brokenRun).entry.store).payloads =
          ((actAll (blank sampleKind none) brokenRun).remote.record sampleKind).objects := by
  have hheld : (actAll (blank sampleKind none) brokenRun).stream? = some 1 := by decide
  have hsending : ((actAll (blank sampleKind none) brokenRun).remote.streams.get 1).sending := by
    decide
  have h := converges sampleKind none brokenRun honest_brokenRun 1 hheld
  exact ⟨hheld, (h.1 hsending).1⟩

end Mirror

end Informer
