import Informer.Proofs.Renumbering

/-!
# Refused calls

A call that is refused changes nothing that anybody can see later, but for two counters. A creation
of an object whose key is taken has drawn an identifier, which is then never given; and a list call
that was to be refused has used up one such refusal. Everything else is as before (`Intact`), and
all later answers are those that would have been given without the call, up to the numbers of later
identifiers.

The numbers themselves are drawn in ascending order by accepted and refused creations alike
(`pairwise_drawnBy`), so a number that is left out is not drawn again.
-/

namespace Informer.Registry

variable {r : Registry} {req : Request} {e : TransportError}

/-! ### What a refused call leaves -/

/-- Registries with the same objects, recorded mutations and watches of every kind, the same last
version, and the same streams with the same deliveries in them. -/
structure Intact (r r' : Registry) : Prop extends Alike r r' where
  objects : ∀ kind, (r'.record kind).objects = (r.record kind).objects

/-- How a request can be refused, and what the registry is then: as it was, or with an identifier
drawn, or with a list call counted. -/
inductive Refused (r : Registry) : Request → TransportError → Registry → Prop
  | invalid (req : Request) (text : String) : Refused r req (.invalid text) r
  | notFound (req : Request) (text : String) : Refused r req (.notFound text) r
  | stale (kind : Kind) (payload : Json) (text : String) :
    Refused r (.update kind payload) (.conflict text) r
  | taken (kind : Kind) (payload : Json) (text : String) :
    Refused r (.create kind payload) (.conflict text) { r with lastUid := r.lastUid + 1 }
  | unavailable (kind : Kind) (text : String) :
    Refused r (.list kind) (.unavailable text) (r.modify kind countList)

/-- **Every refusal is one of these.** -/
theorem refused_of_error? (h : (r.respond req).error? = some e) :
    Refused r req e (r.perform req) := by
  cases req with
  | create kind payload =>
    rw [respond] at h
    rw [perform]
    rcases hread : Object.ofPayload payload with cause | o
    · rw [r.create_of_error kind hread] at h ⊢
      obtain rfl := Option.some.inj h
      exact .invalid _ _
    obtain rfl := Object.ofPayload_eq_ok_iff.1 hread
    rcases hget : r.get? kind o.key with - | held
    · rw [r.create_of_absent kind hget] at h
      cases h
    · rw [r.create_of_held kind hget] at h ⊢
      obtain rfl := Option.some.inj h
      exact .taken kind _ _
  | update kind payload =>
    rw [respond] at h
    rw [perform]
    rcases hread : Object.ofPayload payload with cause | o
    · rw [r.update_of_error kind hread] at h ⊢
      obtain rfl := Option.some.inj h
      exact .invalid _ _
    obtain rfl := Object.ofPayload_eq_ok_iff.1 hread
    rcases hget : r.get? kind o.key with - | held
    · rw [r.update_of_absent kind hget] at h ⊢
      obtain rfl := Option.some.inj h
      exact .notFound _ _
    · rw [update_of_held hget] at h ⊢
      split at h
      · next hstale =>
        rw [if_pos hstale]
        obtain rfl := Option.some.inj h
        exact .stale kind _ _
      · cases h
  | delete kind key =>
    rw [respond] at h
    rw [perform]
    rcases hget : r.get? kind key with - | held
    · rw [r.delete_of_absent kind hget] at h ⊢
      obtain rfl := Option.some.inj h
      exact .notFound _ _
    · rw [r.delete_of_held kind hget] at h
      cases h
  | list kind =>
    rw [respond] at h
    rw [perform]
    rcases Nat.eq_zero_or_pos (r.record kind).failingLists with hnone | hsome
    · rw [r.list_of_answered kind hnone] at h
      cases h
    · rw [r.list_of_failing kind hsome] at h ⊢
      obtain rfl := Option.some.inj h
      exact .unavailable kind _
  | watch kind version? =>
    rw [respond] at h
    rw [perform]
    rcases version? with - | text
    · cases h
    · rcases hparse : parseVersion? text with - | version
      · rw [r.watch_of_invalid kind hparse] at h ⊢
        obtain rfl := Option.some.inj h
        exact .invalid _ _
      · rw [r.watch_of_version kind hparse] at h
        cases h
  | _ => cases h

section Refused

variable {r' : Registry} (h : Refused r req e r')

include h

theorem Refused.label : e.label ∈ ["transport_invalid", "transport_conflict",
    "transport_not_found", "transport_unavailable"] := by
  cases h <;> simp [TransportError.label]

theorem Refused.intact : Intact r r' := by
  cases h with
  | invalid | notFound | stale => exact ⟨.refl r, fun _ ↦ rfl⟩
  | taken => exact ⟨r.alike_lastUid _, fun _ ↦ rfl⟩
  | unavailable kind =>
    exact ⟨alike_modify r kind fun _ ↦ ⟨rfl, rfl⟩, objects_modify r kind fun _ ↦ rfl⟩

/-- After a refusal the registry is as before, up to the number of the identifier drawn last and to
how many list calls of the kind that was to be listed are still to be refused. -/
theorem Refused.twin : ∃ d ≤ 1, Twin r.lastUid d (fun kind ↦ req = .list kind) r r' := by
  have hkept : Twin r.lastUid 0 (fun kind ↦ req = .list kind) r r :=
    ⟨rfl, rfl, Nat.le_refl _, fun _ ↦ .refl _, rfl, fun _ ↦ .refl _⟩
  cases h with
  | invalid | notFound | stale => exact ⟨0, Nat.zero_le _, hkept⟩
  | taken =>
    exact ⟨1, Nat.le_refl _, rfl, rfl, Nat.le_refl _, fun _ ↦ .refl _, rfl, fun _ ↦ .refl _⟩
  | unavailable kind =>
    refine ⟨0, Nat.zero_le _, { hkept with records := fun other ↦ ?_ }⟩
    rw [record_modify]
    split
    · next he =>
      subst he
      exact { hkept.records other with
        failing := Nat.sub_le _ 1
        unspared := fun hspared ↦ absurd rfl hspared }
    · exact .refl _

end Refused

/-! ### Numbers of identifiers -/

/-- The number that a request draws for an identifier: the creation of an object draws the next one,
also when its key is taken. -/
def draws? (r : Registry) : Request → Option Nat
  | .create _ payload => (Object.ofPayload payload).toOption.map fun _ ↦ r.lastUid + 1
  | _ => none

/-- The numbers that some requests draw. -/
def drawnBy (r : Registry) : List Request → List Nat
  | [] => []
  | req :: reqs => (r.draws? req).toList ++ (r.perform req).drawnBy reqs

theorem eq_of_draws? {number : Nat} (h : r.draws? req = some number) : number = r.lastUid + 1 := by
  cases req with
  | create kind payload =>
    obtain ⟨-, -, rfl⟩ := Option.map_eq_some_iff.1 h
    rfl
  | _ => cases h

/-- The last number is the one that was drawn, if one was. -/
theorem lastUid_perform (r : Registry) (req : Request) :
    (r.perform req).lastUid = (r.draws? req).getD r.lastUid := by
  cases req with
  | create kind payload =>
    rw [perform, draws?]
    rcases hread : Object.ofPayload payload with cause | o
    · rw [r.create_of_error kind hread]
      rfl
    obtain rfl := Object.ofPayload_eq_ok_iff.1 hread
    rcases hget : r.get? kind o.key with - | held
    · rw [r.create_of_absent kind hget]
      rfl
    · rw [r.create_of_held kind hget]
      rfl
  | update kind payload =>
    rw [perform]
    obtain ⟨e, hr⟩ | ⟨o, current, s, -, -, -, hr⟩ := r.update_cases kind payload <;> rw [hr] <;> rfl
  | delete kind key =>
    rw [perform]
    obtain ⟨e, hr⟩ | ⟨current, last, -, -, hr⟩ := r.delete_cases kind key <;> rw [hr] <;> rfl
  | list kind =>
    rw [perform, list]
    split <;> rfl
  | watch kind version? =>
    rw [perform]
    obtain ⟨e, hr⟩ | ⟨missed, hr, -⟩ := r.watch_cases kind version? <;> rw [hr] <;> rfl
  | _ => rfl

/-- **No number is drawn twice**: in the course of a run the numbers ascend. -/
theorem pairwise_drawnBy (r : Registry) (reqs : List Request) :
    (r.drawnBy reqs).Pairwise (· < ·) ∧ ∀ number ∈ r.drawnBy reqs, r.lastUid < number := by
  induction reqs generalizing r with
  | nil => exact ⟨.nil, nofun⟩
  | cons req reqs ih =>
    obtain ⟨hpairwise, habove⟩ := ih (r.perform req)
    rw [lastUid_perform] at habove
    rw [drawnBy]
    rcases hdraw : r.draws? req with - | number
    · rw [hdraw] at habove
      exact ⟨hpairwise, habove⟩
    · rw [hdraw] at habove
      have hfirst : r.lastUid < number := eq_of_draws? hdraw ▸ Nat.lt_succ_self _
      refine ⟨List.pairwise_cons.2 ⟨habove, hpairwise⟩, fun k hk ↦ ?_⟩
      obtain rfl | hk := List.mem_cons.1 hk
      · exact hfirst
      · exact Nat.lt_trans hfirst (habove k hk)

/-- A creation that is accepted is stamped with the number that it draws. -/
theorem stamped_of_create {kind : Kind} {payload stored : Json}
    (h : r.respond (.create kind payload) = .stored (.ok stored)) :
    ∃ number, r.draws? (.create kind payload) = some number ∧
      stored = stamp (.string (uidText number)) (r.lastVersion + 1) payload := by
  rw [respond] at h
  rcases hread : Object.ofPayload payload with cause | o
  · rw [r.create_of_error kind hread] at h
    cases h
  obtain rfl := Object.ofPayload_eq_ok_iff.1 hread
  rcases hget : r.get? kind o.key with - | held
  · rw [r.create_of_absent kind hget] at h
    cases h
    exact ⟨r.lastUid + 1, by rw [draws?, hread]; rfl, rfl⟩
  · rw [r.create_of_held kind hget] at h
    cases h

/-! ### The main result -/

/-- **A refused call leaves no trace**, whatever was asked before it. Objects, recorded mutations
and watches of every kind, the last version, and the streams with what they hold are as they were.
And whatever is asked later is answered as it would have been answered without the call, but for the
numbers of the identifiers drawn from there on, which are greater by one if the refused call drew an
identifier; after a refused list call, another list call of the kind may be answered that would have
been refused. No number is drawn twice, by creations that are refused or not, and what is created
has an identifier with the number that was drawn for it. -/
theorem refused_call_leaves_no_trace (before : List Request) (req : Request) (e : TransportError)
    (hrefused : ((performAll {} before).respond req).error? = some e) :
    let r := performAll {} before
    let r' := r.perform req
    e.label ∈ ["transport_invalid", "transport_conflict", "transport_not_found",
      "transport_unavailable"] ∧
    Intact r r' ∧
    ∃ d ≤ 1, r'.lastUid = r.lastUid + d ∧ ∀ later,
      let s := r.performAll later
      let s' := r'.performAll later
      (∀ next, (s.respond next).Renumbered r.lastUid d (s'.respond next) ∨
        ∃ kind, req = .list kind ∧ next = .list kind ∧ (s.respond next).error?.isSome ∧
          (s'.respond next).error? = none) ∧
      (∀ kind key, Option.Rel (Json.Renumbered r.lastUid d) (s.get? kind key) (s'.get? kind key)) ∧
      (∀ kind, s'.openWatches kind = s.openWatches kind) ∧
      (drawnBy {} (before ++ req :: later)).Pairwise (· < ·) ∧
      (∀ next, (s'.perform next).lastUid = (s'.draws? next).getD s'.lastUid) ∧
      ∀ kind payload stored, s'.respond (.create kind payload) = .stored (.ok stored) →
        ∃ number, s'.draws? (.create kind payload) = some number ∧
          stored = stamp (.string (uidText number)) (s'.lastVersion + 1) payload := by
  intro r r'
  have h : Refused r req e r' := refused_of_error? hrefused
  obtain ⟨d, hd, htwin⟩ := h.twin
  refine ⟨h.label, h.intact, d, hd, htwin.drawn, fun later ↦ ?_⟩
  intro s s'
  have hlater : Twin r.lastUid d (fun kind ↦ req = .list kind) s s' := htwin.performAll later
  exact ⟨fun next ↦ (hlater.step next).2, hlater.get?, hlater.openWatches_eq,
    (pairwise_drawnBy {} _).1, s'.lastUid_perform, fun _ _ _ ↦ stamped_of_create⟩

/-- A creation is refused because its key is taken. The next object has the third identifier where
it would have had the second one, and a watch that was open before the refusal delivers it. -/
theorem refused_call_leaves_no_trace_of_conflict :
    let before : List Request := [.create nodeKind (namedPayload "a"), .watch nodeKind none]
    let req : Request := .create nodeKind (namedPayload "a")
    let later : List Request := [.create nodeKind (namedPayload "b")]
    let r := performAll {} before
    let r' := r.perform req
    r'.lastUid = 2 ∧ Intact r r' ∧
      ((r.performAll later).respond (.read 0)).Renumbered 1 1
        ((r'.performAll later).respond (.read 0)) ∧
      (r'.performAll later).get? nodeKind ⟨none, "b"⟩ =
        some (stamp (.string "uid-3") 2 (namedPayload "b")) := by
  intro before req later r r'
  have hrefused : (r.respond req).error? =
      some (.conflict (describe nodeKind ⟨none, "a"⟩ ++ " already exists")) := by
    decide
  obtain ⟨-, hintact, d, -, hd, hlater⟩ := refused_call_leaves_no_trace before req _ hrefused
  obtain rfl : d = 1 := Nat.add_left_cancel (hd.symm.trans (rfl : r'.lastUid = r.lastUid + 1))
  refine ⟨rfl, hintact, ?_, by decide⟩
  obtain hsame | ⟨kind, hlist, -⟩ := (hlater later).1 (.read 0)
  · exact hsame
  · exact Request.noConfusion hlist

end Informer.Registry
