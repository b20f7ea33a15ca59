import Mathlib.Data.List.Induction
import Informer.Proofs.RegistryWrites

/-!
# Payloads keep their identity

A payload is validated before it is changed: an accepted write sets an identifier and a version in
it, the identifier of an update comes from another payload, and a deletion sets a version in what
was stored long before. Metadata come in more than one form, and null is a form of an identifier.
The rule is that none of these changes touches the key or makes a payload unreadable.

`Keyed` is this for what is held. Here it is shown for what is recorded, and with it for all that a
watch holds: a recorded payload reads as an object with the key under which it is held after the
request that recorded it, or was held before it (`exists_heldAs_of_recorded?`). `Truthful` is what
every request but an injection keeps of a kind (`Truthful.perform`).
-/

namespace Informer

namespace Registry

variable {r : Registry} {kind : Kind}

/-- A payload is read as an object with a key. -/
def ReadsAs (p : Json) (key : Key) : Prop :=
  ∃ o : Object, Object.ofPayload p = .ok o ∧ o.key = key

theorem readsAs_payload (o : Object) : ReadsAs o.payload o.key :=
  ⟨o, Object.ofPayload_eq_ok_iff.2 rfl, rfl⟩

theorem Keyed.readsAs (h : Keyed r kind) {key : Key} {p : Json} (hp : r.get? kind key = some p) :
    ReadsAs p key := by
  obtain ⟨o, rfl, rfl⟩ := h key p hp
  exact readsAs_payload o

/-- A listing has what is held, and each payload of it is read with the key that it is held
under. -/
theorem Keyed.readsAs_of_list (h : Keyed r kind) {l : Listing} (hl : (r.list kind).2 = .ok l)
    {p : Json} (hp : p ∈ l.payloads) : ∃ key, ReadsAs p key ∧ r.get? kind key = some p := by
  obtain ⟨key, hheld⟩ := (mem_payloads_iff hl).1 hp
  exact ⟨key, h.readsAs hheld, hheld⟩

/-! ### What a request records -/

/-- When the payload of a recorded mutation is held under a key. What was added or modified is held
after the request. What was deleted was held before the request, in the state that was recorded but
for the version. -/
inductive HeldAs (r : Registry) (req : Request) (kind : Kind) (key : Key) : Mutation → Prop where
  | added {p : Json} (held : (r.perform req).get? kind key = some p) :
    HeldAs r req kind key (.added p)
  | modified {p : Json} (held : (r.perform req).get? kind key = some p) :
    HeldAs r req kind key (.modified p)
  | deleted {p : Json} (held : r.get? kind key = some p)
    (gone : (r.perform req).get? kind key = none) :
    HeldAs r req kind key
      (.deleted (setMetadata "resourceVersion" (.string (toString (r.lastVersion + 1))) p))

/-- What an accepted write stores is read with the key that it is held under. -/
theorem Wrote.readsAs {req : Request} {o : Object} {uid : Json} {last : Nat} {m : Mutation}
    (h : Wrote r req kind o uid last m) (hk : Keyed r kind) :
    ReadsAs m.payload o.key ∧ (r.perform req).get? kind o.key = some m.payload := by
  obtain ⟨uid?, -, huid⟩ := h.gives hk
  obtain ⟨s, hs, hkey, -⟩ := h.object huid
  refine ⟨?_, by rw [h.get?, if_pos ⟨rfl, rfl⟩]⟩
  rw [← hs, ← hkey]
  exact readsAs_payload s

/-- The final state of what is held is read with the same key. -/
theorem ReadsAs.setVersion {p : Json} {key : Key} (h : ReadsAs p key) (version : Nat) :
    ReadsAs (setMetadata "resourceVersion" (.string (toString version)) p) key := by
  obtain ⟨o, ho, rfl⟩ := h
  obtain rfl := Object.ofPayload_eq_ok_iff.1 ho
  obtain ⟨s, hs, hkey⟩ := exists_key_setVersion o version
  rw [← hs, ← hkey]
  exact readsAs_payload s

/-- **What a request records keeps the identity of what is or was held**, unless it is injected. -/
theorem exists_heldAs_of_recorded? (hk : Keyed r kind) {req : Request}
    (hreq : ∀ m, req ≠ .inject kind m) {m : Mutation} (h : r.recorded? req = some (kind, m)) :
    ∃ key, ReadsAs m.payload key ∧ HeldAs r req kind key m := by
  cases req with
  | create other payload =>
    obtain ⟨stored, hstored, hm⟩ := Option.map_eq_some_iff.1 h
    cases hm
    have hwritten : (Request.create kind payload).written? = some (kind, payload) := rfl
    obtain ⟨o, uid, last, m', -, rfl, hwrote⟩ := wrote_of_stored? hwritten hstored
    obtain ⟨hreads, hheld⟩ := hwrote.readsAs hk
    exact ⟨o.key, hreads, .added hheld⟩
  | update other payload =>
    obtain ⟨stored, hstored, hm⟩ := Option.map_eq_some_iff.1 h
    cases hm
    have hwritten : (Request.update kind payload).written? = some (kind, payload) := rfl
    obtain ⟨o, uid, last, m', -, rfl, hwrote⟩ := wrote_of_stored? hwritten hstored
    obtain ⟨hreads, hheld⟩ := hwrote.readsAs hk
    exact ⟨o.key, hreads, .modified hheld⟩
  | delete other key =>
    obtain ⟨p, hheld, hm⟩ := Option.map_eq_some_iff.1 h
    cases hm
    refine ⟨key, (hk.readsAs hheld).setVersion _, .deleted hheld ?_⟩
    obtain ⟨_, _, _, _, _, hwrote⟩ | ⟨_, _, hdelete, -, -, hget⟩ | ⟨hnone, -⟩ :=
      r.touch?_cases (.delete kind key)
    · cases hwrote.written
    · cases hdelete
      rw [hget, if_pos ⟨rfl, rfl⟩]
    · -- a deletion of what is held is accepted
      change (r.record kind).objects[key]? = some p at hheld
      simp [touch?, delete, hheld, Except.toOption] at hnone
  | inject other m' =>
    cases h
    exact absurd rfl (hreq m)
  | _ => cases h

/-! ### What every request keeps -/

/-- What the registry says about a kind: what is held and what is recorded has identity, and the
recorded mutations ascend in their versions. -/
structure Truthful (r : Registry) (kind : Kind) : Prop where
  wired : Wired r
  ordered : Ordered r kind
  keyed : Keyed r kind
  recorded : ∀ x ∈ (r.record kind).history, ∃ key, ReadsAs x.2.payload key

theorem truthful_empty (kind : Kind) : Truthful {} kind where
  wired := wired_empty
  ordered := ordered_empty kind
  keyed := keyed_empty kind
  recorded x hx := by simp [record] at hx

/-- **Every request that injects nothing into a kind keeps it truthful.** -/
theorem Truthful.perform (h : Truthful r kind) {req : Request} (hreq : ∀ m, req ≠ .inject kind m) :
    Truthful (r.perform req) kind where
  wired := h.wired.perform req
  ordered := h.ordered.perform req
  keyed := keyed_perform h.keyed req
  recorded x hx := by
    rw [(r.history_perform_eq req kind).1] at hx
    rcases List.mem_append.1 hx with hx | hx
    · exact h.recorded x hx
    · rcases hrec : r.recorded? req with - | ⟨other, m⟩
      · rw [additions_of_none hrec] at hx
        cases hx
      · rw [additions_of_some hrec] at hx
        split at hx
        · next he =>
          obtain rfl := List.mem_singleton.1 hx
          obtain ⟨key, hreads, -⟩ := exists_heldAs_of_recorded? h.keyed hreq (he ▸ hrec)
          exact ⟨key, hreads⟩
        · cases hx

/-! ### New watches -/

/-- What is recorded after a version comes behind the rest. -/
theorem exists_eq_append_filter {history : List (Nat × Mutation)}
    (h : history.Pairwise (·.1 < ·.1)) (version : Nat) :
    ∃ seen, history = seen ++ history.filter fun x ↦ version < x.1 := by
  induction history with
  | nil => exact ⟨[], rfl⟩
  | cons x rest ih =>
    obtain ⟨hx, hrest⟩ := List.pairwise_cons.1 h
    by_cases hv : version < x.1
    · -- the versions ascend, so all of them are above
      refine ⟨[], ?_⟩
      rw [List.nil_append, eq_comm, List.filter_eq_self]
      intro y hy
      rcases List.mem_cons.1 hy with rfl | hy
      · exact decide_eq_true hv
      · exact decide_eq_true (Nat.lt_trans hv (hx y hy))
    · obtain ⟨seen, hseen⟩ := ih hrest
      refine ⟨x :: seen, ?_⟩
      rw [List.filter_cons_of_neg (by simpa using hv), List.cons_append, ← hseen]

/-- Whatever version a watch is opened from, it is to yield recorded mutations. -/
theorem Ordered.exists_feed (h : Ordered r kind) {version? : Option String} {n : Nat}
    (hopen : (r.watch kind version?).2 = .ok n) :
    ∃ seen, Feed (r.watch kind version?).1 kind n seen := by
  have hfeed : ∀ seen later, (r.record kind).history = seen ++ later →
      Feed (r.openWatch kind (later.map (·.2))) kind r.streams.opened seen := by
    intro seen later hhistory
    refine .live later ?_ ?_ ?_
    · rw [record_openWatch, if_pos rfl, hhistory]
    · refine (Streams.get_openWith_self r.streams _).trans ?_
      rw [List.map_map]
      rfl
    · rw [record_openWatch, if_pos rfl]
      exact List.mem_append_right _ List.mem_cons_self
  rcases version? with - | text
  · cases hopen
    exact ⟨_, hfeed _ [] (List.append_nil _).symm⟩
  · obtain ⟨e, hwatch⟩ | ⟨missed, hwatch, hmissed⟩ := r.watch_cases kind (some text)
    · rw [hwatch] at hopen
      cases hopen
    · obtain ⟨v, -, rfl⟩ := hmissed text rfl
      obtain ⟨seen, hseen⟩ := exists_eq_append_filter h.ascending v
      rw [hwatch] at hopen ⊢
      cases hopen
      exact ⟨seen, hfeed seen _ hseen⟩

/-! ### Whole runs -/

/-- What is recorded was recorded by some request of the run, under the version that came next. -/
theorem exists_recorded?_of_mem_history {reqs : List Request} {x : Nat × Mutation}
    (h : x ∈ ((performAll {} reqs).record kind).history) :
    ∃ before req later, reqs = before ++ req :: later ∧
      (performAll {} before).recorded? req = some (kind, x.2) ∧
      x.1 = (performAll {} before).lastVersion + 1 := by
  induction reqs using List.reverseRecOn with
  | nil => simp [record] at h
  | append_singleton reqs req ih =>
    rw [performAll_append, performAll_cons, performAll_nil, (history_perform_eq _ req kind).1] at h
    rcases List.mem_append.1 h with h | h
    · obtain ⟨before, old, later, rfl, hrec⟩ := ih h
      exact ⟨before, old, later ++ [req], by simp, hrec⟩
    · refine ⟨reqs, req, [], rfl, ?_⟩
      rcases hrec : (performAll {} reqs).recorded? req with - | ⟨other, m⟩
      · rw [additions_of_none hrec] at h
        cases h
      · rw [additions_of_some hrec] at h
        split at h
        · next he =>
          rw [List.mem_singleton.1 h, he]
          exact ⟨rfl, rfl⟩
        · cases h

end Registry

end Informer
