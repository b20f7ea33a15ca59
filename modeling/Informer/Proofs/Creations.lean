import Informer.Proofs.TypedView

/-!
# When an object counts as created

A handler is told that an object was created where a notification leaves a state that decodes and
the state before it does not decode or is absent (`ObjectEvent.create_iff`). Only the state before
counts, and not what the handler was told earlier, so what separates two creations of one key is
that the key had a state that decodes in between no longer: it was deleted, and then the handler was
told so, or it went through a state that does not decode, and then it was told nothing
(`Source.creates_apart`).

The link is `Notification.decodes_carryAll`: while no notification about the key leaves it without a
state that decodes, the store holds such a state under it, and an update from there is an update.
-/

namespace Informer

/-! ### Keys with a state that decodes -/

namespace Notification

variable {α : Type} [Resource α]

/-- Whether a notification leaves its key without a state that decodes. -/
def Forgets (α : Type) [Resource α] (n : Notification) : Prop :=
  ∀ o x, n.current? = some o → o.decode α ≠ .ok x

/-- Whether a state that decodes is held under a key. -/
def Decodes (α : Type) [Resource α] (held : Contents) (key : Key) : Prop :=
  ∃ o x, held[key]? = some o ∧ o.decode α = .ok x

/-- A notification decides about its own key. -/
theorem decodes_carry_key {held : Contents} {n : Notification} :
    Decodes α (n.carry held) n.key ↔ ¬ n.Forgets α := by
  simp only [Decodes, Forgets, getElem?_carry, if_true]
  push Not
  rfl

theorem decodes_carry_of_ne {held : Contents} {n : Notification} {key : Key} (h : n.key ≠ key) :
    Decodes α (n.carry held) key ↔ Decodes α held key := by
  simp only [Decodes, getElem?_carry, if_neg h]

/-- A key keeps a state that decodes until a notification about it takes that away. -/
theorem decodes_carryAll {held : Contents} {key : Key} (h : Decodes α held key)
    {ns : List Notification} (hns : ∀ n ∈ ns, n.key = key → ¬ n.Forgets α) :
    Decodes α (carryAll held ns) key := by
  induction ns generalizing held with
  | nil => exact h
  | cons n ns ih =>
    have hn : Decodes α (n.carry held) key := by
      by_cases hk : n.key = key
      · subst hk
        exact decodes_carry_key.2 (hns n List.mem_cons_self rfl)
      · exact (decodes_carry_of_ne hk).2 h
    exact ih hn fun m hm ↦ hns m (List.mem_cons_of_mem _ hm)

end Notification

open Notification (Decodes)

/-! ### Creations -/

namespace ObjectEvent

variable {α : Type} [Resource α]

/-- Whether an event is the creation of an object with some key. -/
def Creates (key : Key) (e : ObjectEvent α) : Prop := ∃ m x, e = create m x ∧ m.key = key

omit [Resource α] in
theorem Creates.key_eq {key : Key} {e : ObjectEvent α} (h : e.Creates key) : e.key = key := by
  obtain ⟨m, x, rfl, hm⟩ := h
  exact hm

/-- Whether an event is the deletion of an object with some key. -/
def Deletes (key : Key) (e : ObjectEvent α) : Prop := ∃ m x?, e = delete m x? ∧ m.key = key

/-- Whether between any two creations of a key there is a deletion of that key. -/
def CreatesOnce (events : List (ObjectEvent α)) : Prop :=
  ∀ key seen first between second rest, events = seen ++ first :: (between ++ second :: rest) →
    first.Creates key → second.Creates key → ∃ e ∈ between, e.Deletes key

variable [LawfulResource α]

/-- **An object counts as created by the states alone**: its key has a state that decodes after the
notification and had none before it. -/
theorem create_iff {held : Contents} {n : Notification} (hn : n.Fits held) :
    (∃ e : ObjectEvent α, ofNotification n = .ok e ∧ e.Creates n.key) ↔
      Decodes α (n.carry held) n.key ∧ ¬ Decodes α held n.key := by
  rw [Notification.decodes_carry_key]
  cases n with
  | added o =>
    have hbefore : ¬ Decodes α held o.key := by
      rintro ⟨old, x, hold, -⟩
      rw [show held[o.key]? = none from hn] at hold
      cases hold
    rcases hx : o.decode α with cause | x
    · simp [ofNotification, Notification.Forgets, Notification.current?, Except.map, hx]
    · have hkey : (Resource.metadata x).key = o.key := congrArg _ (Object.metadata_of_decode hx)
      simp [ofNotification, Notification.Forgets, Notification.current?, Except.map, hx, hkey,
        ofCreated, Creates, Notification.key, hbefore]
  | updated old new =>
    have hbefore : Decodes α held new.key ↔ ∃ x, old.decode α = .ok x := by
      simp only [Decodes, hn.1, Option.some.injEq, ↓existsAndEq, true_and]
    rcases hx : new.decode α with cause | x
    · simp [ofNotification_of_malformed (α := α) (n := .updated old new) rfl hx,
        Notification.Forgets, Notification.current?, hx]
    · have hkey : (Resource.metadata x).key = new.key := congrArg _ (Object.metadata_of_decode hx)
      rcases hold : old.decode α with cause | before <;>
        simp [ofNotification, Notification.Forgets, Notification.current?, hx, hold, hkey,
          Notification.key, ofCreated, Creates, hbefore, bind, Except.bind, pure, Except.pure]
  | deleted last? observed =>
    obtain ⟨e, he, -, hstate⟩ := ofNotification_deleted (α := α) hn
    simp only [he, Except.ok.injEq, ↓existsAndEq, true_and]
    constructor
    · rintro ⟨m, x, rfl, -⟩
      cases hstate
    · rintro ⟨hforgets, -⟩
      exact absurd (fun o x h ↦ by cases h) hforgets

/-- An event has the key of its notification. -/
theorem key_eq_of_ofNotification {held : Contents} {n : Notification} {e : ObjectEvent α}
    (hn : n.Fits held) (he : ofNotification n = .ok e) : e.key = n.key := by
  rcases Source.calls_cases α hn "" with ⟨d, hd, hkey, -⟩ | ⟨hnone, -⟩
  · rw [Source.calls_of_ok he] at hd
    obtain rfl : e = d := (List.cons.inj hd).1
    exact hkey
  · rw [Source.calls_of_ok he] at hnone
    cases hnone

end ObjectEvent

/-! ### Runs -/

namespace Source

open Notification (History)
open ObjectEvent (CreatesOnce)

variable {α : Type} [Resource α]

/-- Each call of a handler is made for a notification of its own, and the calls before and after it
are those for the notifications before and after that one. -/
theorem exists_of_calls_eq {name : String} {ns : List Notification} {e : ObjectEvent α}
    {seen rest : List (ObjectEvent α)} (h : calls α name ns = seen ++ e :: rest) :
    ∃ before n after, ns = before ++ n :: after ∧ calls α name before = seen ∧
      interpret α name n = .ok e ∧ calls α name after = rest := by
  obtain ⟨before, later, rfl, hseen, hlater⟩ := List.filterMap_eq_append_iff.1 h
  obtain ⟨dropped, n, after, rfl, hdropped, hn, hafter⟩ := List.filterMap_eq_cons_iff.1 hlater
  refine ⟨before ++ dropped, n, after, by rw [List.append_assoc], ?_, ?_, hafter⟩
  · rw [calls_append, ← hseen, calls, calls, List.filterMap_eq_nil_iff.2 hdropped, List.append_nil]
  · rcases hi : interpret α name n with report | d
    · simp [hi, Except.toOption] at hn
    · rw [hi] at hn
      exact congrArg Except.ok (Option.some.inj hn)

variable [LawfulResource α]

/-- Between two creations of a key some notification leaves it without a state that decodes. -/
theorem exists_forgets {held : Contents} {name : String} {first second : Notification}
    {between : List Notification} {key : Key} {e f : ObjectEvent α}
    (hns : History held (first :: (between ++ [second]))) (he : interpret α name first = .ok e)
    (hf : interpret α name second = .ok f) (hcreated : e.Creates key) (hagain : f.Creates key) :
    ∃ n ∈ between, n.key = key ∧ n.Forgets α := by
  obtain ⟨hfirst, hrest⟩ := hns
  obtain ⟨-, hsecond, -⟩ := Notification.history_append.1 hrest
  rw [interpret_eq_ok_iff] at he hf
  obtain rfl : first.key = key :=
    (ObjectEvent.key_eq_of_ofNotification hfirst he).symm.trans hcreated.key_eq
  have hkey : second.key = first.key :=
    (ObjectEvent.key_eq_of_ofNotification hsecond hf).symm.trans hagain.key_eq
  by_contra hall
  push Not at hall
  have hdecodes := ((ObjectEvent.create_iff hfirst).1 ⟨e, he, hcreated⟩).1
  refine ((ObjectEvent.create_iff hsecond).1 ⟨f, hf, hkey ▸ hagain⟩).2 (hkey ▸ ?_)
  exact Notification.decodes_carryAll hdecodes hall

/-- What takes a state that decodes away from a key: a deletion, of which the handler is told, or a
state that does not decode. -/
theorem deletes_or_malformed {held : Contents} {n : Notification} (hn : n.Fits held)
    (h : n.Forgets α) (name : String) :
    (∃ d : ObjectEvent α, interpret α name n = .ok d ∧ d.Deletes n.key) ∨
      ∃ o cause, n.current? = some o ∧ o.decode α = .error cause := by
  rcases hcurrent : n.current? with - | o
  · cases n with
    | deleted last? observed =>
      obtain ⟨d, hd, hkey, hstate⟩ := ObjectEvent.ofNotification_deleted (α := α) hn
      refine .inl ⟨d, interpret_eq_ok_iff.2 hd, ?_⟩
      cases d with
      | delete m x? => exact ⟨m, x?, rfl, hkey⟩
      | _ => cases hstate
    | _ => cases hcurrent
  · rcases hx : o.decode α with cause | x
    · exact .inr ⟨o, cause, rfl, hx⟩
    · exact absurd hx (h o x hcurrent)

/-- Two creations in a history of one key are apart by a deletion or by a state that does not
decode. -/
theorem exists_between {ns : List Notification} (hns : History ∅ ns) (name : String) {key : Key}
    {seen between rest : List Notification} {first second : Notification} {e f : ObjectEvent α}
    (h : ns = seen ++ first :: (between ++ second :: rest)) (he : interpret α name first = .ok e)
    (hf : interpret α name second = .ok f) (hcreated : e.Creates key) (hagain : f.Creates key) :
    ∃ n ∈ between, n.key = key ∧
      ((∃ d : ObjectEvent α, interpret α name n = .ok d ∧ d.Deletes key) ∨
        ∃ o cause, n.current? = some o ∧ o.decode α = .error cause) := by
  rw [h, Notification.history_append, Notification.history_cons, Notification.history_append,
    Notification.history_cons] at hns
  obtain ⟨-, hfirst, hbetween, hsecond, -⟩ := hns
  obtain ⟨n, hn, rfl, hforgets⟩ := exists_forgets
    ⟨hfirst, Notification.history_append.2 ⟨hbetween, hsecond, trivial⟩⟩ he hf hcreated hagain
  obtain ⟨earlier, later, rfl⟩ := List.append_of_mem hn
  obtain ⟨-, hfits, -⟩ := Notification.history_append.1 hbetween
  exact ⟨n, hn, rfl, deletes_or_malformed hfits hforgets name⟩

/-- Where every state decodes, no key is created twice without a deletion in between. -/
theorem createsOnce_of_history {ns : List Notification} (hns : History ∅ ns) (name : String)
    (hdecodes : ∀ n ∈ ns, ∀ o, n.current? = some o → ∃ x, o.decode α = .ok x) :
    CreatesOnce (calls α name ns) := by
  intro key seen first between second rest hcalls hcreated hagain
  -- the two creations are two of the notifications, and what is between them is between those
  obtain ⟨before, n₁, after, rfl, -, he, hafter⟩ := exists_of_calls_eq hcalls
  obtain ⟨middle, n₂, last, rfl, rfl, hf, -⟩ := exists_of_calls_eq hafter
  obtain ⟨n, hn, -, ⟨d, hd, hdeletes⟩ | ⟨o, cause, ho, hmalformed⟩⟩ :=
    exists_between hns name rfl he hf hcreated hagain
  · exact ⟨d, List.mem_filterMap.2 ⟨n, hn, by rw [hd]; rfl⟩, hdeletes⟩
  · obtain ⟨x, hx⟩ := hdecodes n (by simp [hn]) o ho
    rw [hmalformed] at hx
    cases hx

/-- **Two creations of a key are apart by a deletion or by a state that does not decode.** Over
every run of the entry of a known kind before the stop signal, and for every source started at any
point of it:

* between two notifications that its handler is told of as creations of one key there is a
  notification about that key which is told of as a deletion, or which leaves a state that does not
  decode;
* where every state decodes, the handler is never told of two creations of one key without a
  deletion of that key in between. -/
theorem creations_apart (k : Known) (backlog? : Option Nat) (before after : List Entry.Action)
    (name : String) :
    let id := (Entry.actAll (Entry.blank k.kind backlog?) before).nextCallback
    let s := Entry.actAll (Entry.blank k.kind backlog?) (before ++ .register name :: after)
    (∀ key seen first between second rest e f,
      s.handedTo id = seen ++ first :: (between ++ second :: rest) →
      interpret k.Carrier name first = .ok e → interpret k.Carrier name second = .ok f →
      e.Creates key → f.Creates key →
      ∃ n ∈ between, n.key = key ∧
        ((∃ d, interpret k.Carrier name n = .ok d ∧ d.Deletes key) ∨
          ∃ o cause, n.current? = some o ∧ o.decode k.Carrier = .error cause)) ∧
    ((∀ n ∈ s.handedTo id, ∀ o, n.current? = some o → ∃ x, o.decode k.Carrier = .ok x) →
      CreatesOnce (calls k.Carrier name (s.handedTo id))) := by
  intro id s
  have hleads : Notification.Leads ∅ (s.handedTo id ++ s.state.callbacks.queueOf id)
      s.state.store.objects := Entry.leads_sequence k.kind backlog? before after name
  have hhistory : History ∅ (s.handedTo id) := (Notification.history_append.1 hleads.history).1
  refine ⟨?_, createsOnce_of_history hhistory name⟩
  intro key seen first between second rest e f hns he hf hcreated hagain
  exact exists_between hhistory name hns he hf hcreated hagain

/-- The entry of widgets with one callback, which is given some changes one by one. -/
def viewed (changes : List Change) : Session Entry :=
  Entry.actAll (Entry.blank Known.widget.kind none) (.register "view" ::
    changes.flatMap fun change ↦ [.apply change, .advance 1, .complete 1 .returned])

/-- Of a widget that decodes, then does not and then does again, the last two states are told of as
a creation and a creation; what is between them does not decode. Of a widget that is deleted in
between the creations are apart. -/
theorem creations_apart_by_state :
    (∃ n ∈ [Notification.updated repairedWidget malformedWidget], n.key = repairedWidget.key ∧
      ((∃ d, interpret Known.widget.Carrier "view" n = .ok d ∧ d.Deletes repairedWidget.key) ∨
        ∃ o cause, n.current? = some o ∧ o.decode Known.widget.Carrier = .error cause)) ∧
    CreatesOnce (calls Known.widget.Carrier "view" ((viewed [.upsert repairedWidget,
      .remove repairedWidget, .upsert repairedWidget]).handedTo 1)) := by
  constructor
  · exact (creations_apart .widget none [] _ "view").1 repairedWidget.key [] (.added repairedWidget)
      [.updated repairedWidget malformedWidget] (.updated malformedWidget repairedWidget) []
      (.create { name := "a" } ⟨{ name := "a" }, ⟨2⟩⟩)
      (.create { name := "a" } ⟨{ name := "a" }, ⟨2⟩⟩)
      (show (viewed [.upsert repairedWidget, .upsert malformedWidget,
        .upsert repairedWidget]).handedTo 1 = _ from rfl) rfl rfl ⟨_, _, rfl, rfl⟩ ⟨_, _, rfl, rfl⟩
  · refine (creations_apart .widget none [] _ "view").2 ?_
    show ∀ n ∈ [Notification.added repairedWidget, .deleted (some repairedWidget) repairedWidget,
      .added repairedWidget], _
    intro n hn o ho
    simp only [List.mem_cons, List.not_mem_nil, or_false] at hn
    rcases hn with rfl | rfl | rfl <;> cases ho <;> exact ⟨_, rfl⟩

/-- A widget that decodes, then does not and then does again is created twice: the handler was not
told of the second state, and the third does not follow one that it knows. -/
theorem not_createsOnce_repaired :
    ¬ CreatesOnce (calls Widget "view" ((viewed [.upsert repairedWidget, .upsert malformedWidget,
      .upsert repairedWidget]).handedTo 1)) := by
  intro h
  obtain ⟨e, he, -⟩ := h repairedWidget.key [] (.create { name := "a" } ⟨{ name := "a" }, ⟨2⟩⟩) []
    (.create { name := "a" } ⟨{ name := "a" }, ⟨2⟩⟩) [] rfl ⟨_, _, rfl, rfl⟩ ⟨_, _, rfl, rfl⟩
  cases he

end Source

end Informer
