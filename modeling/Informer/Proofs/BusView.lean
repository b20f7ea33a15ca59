import Mathlib.Data.List.Basic
import Std.Data.ExtTreeMap.Lemmas
import Informer.Bus

/-!
# What a receiver sees of a bus

For one receiver a ring is a queue: the events that it has still to read, and how many it lost since
it last read. `View` is that queue. `view?_publish` and `recv_cases` say what publishing and reading
do to it, and nothing else of positions and of the ring is needed by what is built on a bus. A
receiver that loses nothing reads what was published for it, in its order (`Owes.publish`,
`Owes.recv`).
-/

namespace Informer

namespace Bus

variable {α : Type}

/-- A bus for one receiver: what it lost, and what it can read after that. -/
structure View (α : Type) where
  lost : Nat := 0
  pending : List α := []
deriving DecidableEq

/-- What a receiver sees, if there is one with this number. -/
def view? (b : Bus α) (receiver : Nat) : Option (View α) :=
  (b.receivers[receiver]?).map fun next ↦
    { lost := b.oldest - next, pending := b.kept.drop (next - b.oldest) }

/-- What holds of every bus. -/
structure WellFormed (b : Bus α) : Prop where
  roomy : 0 < b.capacity
  /-- What is kept was published. -/
  counted : b.kept.length ≤ b.published
  /-- No receiver is ahead of what was published. -/
  behind : ∀ receiver next : Nat, b.receivers[receiver]? = some next → next ≤ b.published

variable {b : Bus α}

theorem wellFormed_ofCapacity (capacity : Nat) : (ofCapacity capacity : Bus α).WellFormed where
  roomy := Nat.pos_of_isPowerOfTwo (Nat.isPowerOfTwo_nextPowerOfTwo _)
  counted := Nat.le_refl 0
  behind receiver next h := by simp [ofCapacity] at h

theorem WellFormed.moveTo (h : b.WellFormed) (receiver : Nat) {position : Nat}
    (hp : position ≤ b.published) : (b.moveTo receiver position).WellFormed where
  roomy := h.roomy
  counted := h.counted
  behind other next hnext := by
    rw [Bus.moveTo, Std.ExtTreeMap.getElem?_insert] at hnext
    split at hnext
    · obtain rfl := Option.some.inj hnext
      exact hp
    · exact h.behind other next hnext

theorem WellFormed.subscribe (h : b.WellFormed) : b.subscribe.WellFormed where
  roomy := h.roomy
  counted := h.counted
  behind := (h.moveTo b.joined (Nat.le_refl b.published)).behind

/-- A new receiver sees an empty queue. -/
theorem view?_subscribe (h : b.WellFormed) : b.subscribe.view? b.joined = some {} := by
  have hle : b.published - b.kept.length ≤ b.published := Nat.sub_le _ _
  simp only [view?, subscribe, oldest, Std.ExtTreeMap.getElem?_insert_self, Option.map_some,
    Nat.sub_eq_zero_of_le hle, Nat.sub_sub_self h.counted, List.drop_length]

theorem WellFormed.publish (h : b.WellFormed) (e : α) : (b.publish e).WellFormed := by
  unfold Bus.publish
  split
  · exact h
  · refine ⟨h.roomy, ?_, fun receiver next hnext ↦ Nat.le_succ_of_le (h.behind _ _ hnext)⟩
    have hcounted := h.counted
    simp only [List.length_drop, List.length_append, List.length_singleton]
    omega

/-- **What is published is put at the end of the queue of every receiver**; what does not fit is
lost at its front. -/
theorem view?_publish (h : b.WellFormed) {receiver : Nat} {v : View α}
    (hv : b.view? receiver = some v) (e : α) :
    (b.publish e).view? receiver = some
      { lost := v.lost + (v.pending.length + 1 - b.capacity)
        pending := (v.pending ++ [e]).drop (v.pending.length + 1 - b.capacity) } := by
  obtain ⟨next, hnext, rfl⟩ := Option.map_eq_some_iff.1 hv
  have hsome : b.receivers.isEmpty = false := by
    by_contra hempty
    have hnone : b.receivers = ∅ := by simpa using hempty
    simp [hnone] at hnext
  have hbehind := h.behind _ _ hnext
  have hcounted := h.counted
  -- the ring loses its first `k` events, of which `next - oldest` are read already
  obtain ⟨k, hk⟩ : ∃ k, b.kept.length + 1 - b.capacity = k := ⟨_, rfl⟩
  obtain ⟨r, hr⟩ : ∃ r, next - b.oldest = r := ⟨_, rfl⟩
  have hread : r ≤ b.kept.length := by
    simp only [oldest] at hr
    omega
  have hlength : (b.kept.drop r).length + 1 - b.capacity = k - r := by
    rw [List.length_drop]
    omega
  have hold : (b.publish e).oldest = b.oldest + k := by
    have hroomy := h.roomy
    simp only [Bus.publish, hsome, Bool.false_eq_true, if_false, oldest, List.length_drop,
      List.length_append, List.length_singleton]
    omega
  have hkept : (b.publish e).kept = (b.kept ++ [e]).drop k := by
    simp [Bus.publish, hsome, hk]
  have hreceivers : (b.publish e).receivers[receiver]? = some next := by
    simpa [Bus.publish, hsome] using hnext
  have hlost : b.oldest + k - next = b.oldest - next + (k - r) := by omega
  have hdrop : k + (next - (b.oldest + k)) = r + (k - r) := by omega
  simp only [view?, hreceivers, Option.map_some, hold, hkept, hr, hlength, hlost, List.drop_drop,
    hdrop]
  rw [← List.drop_drop, List.drop_append_of_le_length hread]

/-- What is published for a receiver that has read everything is what it reads next. -/
theorem view?_publish_empty (h : b.WellFormed) {receiver : Nat} (hv : b.view? receiver = some {})
    (e : α) : (b.publish e).view? receiver = some { pending := [e] } := by
  have hone : 1 - b.capacity = 0 := Nat.sub_eq_zero_of_le h.roomy
  rw [view?_publish h hv, List.length_nil, Nat.zero_add, hone]
  rfl

theorem view?_moveTo_self (receiver position : Nat) :
    (b.moveTo receiver position).view? receiver =
      some { lost := b.oldest - position, pending := b.kept.drop (position - b.oldest) } := by
  simp only [view?, moveTo, Std.ExtTreeMap.getElem?_insert_self, Option.map_some]
  rfl

/-- **What a receiver reads**: that it lost something, if it did, and then the first event of its
queue. -/
theorem recv_cases (h : b.WellFormed) {receiver : Nat} {v : View α}
    (hv : b.view? receiver = some v) :
    (∃ position, 0 < v.lost ∧ position ≤ b.published ∧
      b.recv receiver = (b.moveTo receiver position, .lagged v.lost) ∧
      (b.moveTo receiver position).view? receiver = some { pending := v.pending }) ∨
    (∃ position e rest, v.lost = 0 ∧ v.pending = e :: rest ∧ position ≤ b.published ∧
      b.recv receiver = (b.moveTo receiver position, .event e) ∧
      (b.moveTo receiver position).view? receiver = some { pending := rest }) ∨
    (v.lost = 0 ∧ v.pending = [] ∧
      b.recv receiver = (b, if b.closed then .closed else .empty)) := by
  obtain ⟨next, hnext, rfl⟩ := Option.map_eq_some_iff.1 hv
  have hcounted := h.counted
  by_cases hlost : next < b.oldest
  · refine .inl ⟨b.oldest, Nat.sub_pos_of_lt hlost, Nat.sub_le _ _, ?_, ?_⟩
    · simp [recv, hnext, hlost]
    · rw [view?_moveTo_self, Nat.sub_self, Nat.sub_eq_zero_of_le (Nat.le_of_lt hlost)]
  · have hle : b.oldest ≤ next := Nat.le_of_not_lt hlost
    rcases hpending : b.kept.drop (next - b.oldest) with - | ⟨e, rest⟩
    · refine .inr (.inr ⟨Nat.sub_eq_zero_of_le hle, rfl, ?_⟩)
      have hnone : b.kept[next - b.oldest]? = none :=
        List.getElem?_eq_none (List.drop_eq_nil_iff.1 hpending)
      simp [recv, hnext, hlost, hnone]
    · have hsome : b.kept[next - b.oldest]? = some e := by
        rw [← List.head?_drop, hpending]
        rfl
      have hlt : next - b.oldest < b.kept.length := (List.getElem?_eq_some_iff.1 hsome).1
      refine .inr (.inl ⟨next + 1, e, rest, Nat.sub_eq_zero_of_le hle, rfl, ?_, ?_, ?_⟩)
      · simp only [oldest] at hlt hle
        omega
      · simp [recv, hnext, hlost, hsome]
      · have hrest : b.kept.drop (next + 1 - b.oldest) = rest := by
          have hsucc : next + 1 - b.oldest = next - b.oldest + 1 := Nat.succ_sub hle
          rw [hsucc, ← List.drop_drop, hpending]
          rfl
        rw [view?_moveTo_self, hrest, Nat.sub_eq_zero_of_le (Nat.le_succ_of_le hle)]

/-! ### What a receiver has still to read -/

/-- The events that were published since the one that a receiver read last; it may have lost the
first of them. -/
structure Owes (b : Bus α) (receiver : Nat) (events : List α) : Prop where
  wellFormed : b.WellFormed
  view : ∃ lost ≤ events.length, b.view? receiver = some { lost, pending := events.drop lost }

variable {receiver : Nat} {events : List α}

theorem owes_subscribe (h : b.WellFormed) : b.subscribe.Owes b.joined [] :=
  ⟨h.subscribe, 0, Nat.le_refl 0, view?_subscribe h⟩

theorem Owes.publish (h : b.Owes receiver events) (e : α) :
    (b.publish e).Owes receiver (events ++ [e]) := by
  obtain ⟨hwf, lost, hlost, hview⟩ := h
  obtain ⟨more, hmore⟩ : ∃ more, (events.drop lost).length + 1 - b.capacity = more := ⟨_, rfl⟩
  refine ⟨hwf.publish e, lost + more, ?_, ?_⟩
  · rw [List.length_drop] at hmore
    rw [List.length_append, List.length_singleton]
    omega
  · rw [view?_publish hwf hview, hmore, ← List.drop_drop, List.drop_append_of_le_length hlost]

theorem Owes.publishAll (h : b.Owes receiver events) (es : List α) :
    (es.foldl Bus.publish b).Owes receiver (events ++ es) := by
  induction es generalizing b events with
  | nil => rwa [List.append_nil]
  | cons e es ih =>
    have hrest := ih (h.publish e)
    rwa [List.append_assoc] at hrest

/-- **A receiver that has lost nothing reads the events in their order**, and finds none when it has
read all. -/
theorem Owes.recv (h : b.Owes receiver events) :
    (∃ count, (b.recv receiver).2 = .lagged count) ∨
    (∃ e rest, events = e :: rest ∧ (b.recv receiver).2 = .event e ∧
      (b.recv receiver).1.Owes receiver rest) ∨
    (events = [] ∧ (b.recv receiver).1 = b ∧
      ((b.recv receiver).2 = .empty ∨ (b.recv receiver).2 = .closed)) := by
  obtain ⟨hwf, lost, hlost, hview⟩ := h
  obtain ⟨position, -, -, hrecv, -⟩ | ⟨position, e, rest, hzero, hpending, hp, hrecv, hnext⟩ |
    ⟨hzero, hpending, hrecv⟩ := recv_cases hwf hview
  · exact .inl ⟨lost, by rw [hrecv]⟩
  · obtain rfl : lost = 0 := hzero
    refine .inr (.inl ⟨e, rest, hpending, by rw [hrecv], ?_⟩)
    rw [hrecv]
    exact ⟨hwf.moveTo receiver hp, 0, Nat.zero_le _, hnext⟩
  · obtain rfl : lost = 0 := hzero
    refine .inr (.inr ⟨hpending, by rw [hrecv], ?_⟩)
    rw [hrecv]
    cases b.closed with
    | true => exact .inr rfl
    | false => exact .inl rfl

end Bus

end Informer
