import Informer.Store

/-!
# Histories of a store

What a reader of notifications can reconstruct. A notification *fits* some contents when it says the
truth about them: an addition names a key that is absent, an update or a deletion the state that is
held. Carrying it out gives the contents after it, and a list of notifications that fit one after
another is a history.

* `leads_apply`, `leads_replace`, `leads_resync`: whatever a store reports is a history of its
  contents, and leads from the contents before to the contents after.
* `leads_replay`: what a late reader is given leads from nothing to the contents.

All of them rest on one fact about the store, that an object is held under its own key
(`Store.Keyed`); none looks at the index by namespace.
-/

namespace Informer

namespace Key

variable {β : Type}

/-- What is found after an insertion, with equality of keys in place of their order. -/
theorem getElem?_insert (held : Std.ExtTreeMap Key β) (k : Key) (v : β) (key : Key) :
    (held.insert k v)[key]? = if k = key then some v else held[key]? := by
  rw [Std.ExtTreeMap.getElem?_insert]
  by_cases h : k = key <;> simp [h]

theorem getElem?_erase (held : Std.ExtTreeMap Key β) (k key : Key) :
    (held.erase k)[key]? = if k = key then none else held[key]? := by
  rw [Std.ExtTreeMap.getElem?_erase]
  by_cases h : k = key <;> simp [h]

end Key

/-- What a store holds, or what a reader believes that it holds. -/
abbrev Contents := Std.ExtTreeMap Key Object

namespace Notification

/-- What a notification says about the contents before it. -/
def Fits (held : Contents) : Notification → Prop
  | added o => held[o.key]? = none
  | updated old new => held[new.key]? = some old ∧ old.key = new.key
  | deleted (some last) observed => held[observed.key]? = some last ∧ last.key = observed.key
  | deleted none observed => held[observed.key]? = none

/-- The contents after a notification. -/
def carry (held : Contents) : Notification → Contents
  | added o => held.insert o.key o
  | updated _ new => held.insert new.key new
  | deleted _ observed => held.erase observed.key

/-- Whether each of some notifications fits the contents that the ones before it lead to. -/
def History (held : Contents) : List Notification → Prop
  | [] => True
  | n :: rest => n.Fits held ∧ History (n.carry held) rest

/-- The contents that some notifications lead to. -/
def carryAll (held : Contents) (ns : List Notification) : Contents := ns.foldl carry held

@[simp] theorem history_nil (held : Contents) : History held [] := trivial

@[simp] theorem history_cons {held : Contents} {n : Notification} {ns : List Notification} :
    History held (n :: ns) ↔ n.Fits held ∧ History (n.carry held) ns :=
  Iff.rfl

@[simp] theorem carryAll_nil (held : Contents) : carryAll held [] = held := rfl

@[simp] theorem carryAll_cons (held : Contents) (n : Notification) (ns : List Notification) :
    carryAll held (n :: ns) = carryAll (n.carry held) ns :=
  rfl

@[simp] theorem carryAll_append (held : Contents) (ns ms : List Notification) :
    carryAll held (ns ++ ms) = carryAll (carryAll held ns) ms :=
  List.foldl_append

/-- Histories compose. -/
@[simp] theorem history_append {held : Contents} {ns ms : List Notification} :
    History held (ns ++ ms) ↔ History held ns ∧ History (carryAll held ns) ms := by
  induction ns generalizing held with
  | nil => simp
  | cons n ns ih => simp [ih, and_assoc]

/-- `ns` is a history that leads from the contents `held` to the contents `after`. -/
structure Leads (held : Contents) (ns : List Notification) (after : Contents) : Prop where
  history : History held ns
  carryAll_eq : carryAll held ns = after

theorem Leads.append {before middle after : Contents} {ns ms : List Notification}
    (h : Leads before ns middle) (k : Leads middle ms after) : Leads before (ns ++ ms) after := by
  obtain ⟨hh, rfl⟩ := h
  obtain ⟨hk, rfl⟩ := k
  exact ⟨history_append.2 ⟨hh, hk⟩, carryAll_append _ _ _⟩

theorem Leads.refl (held : Contents) : Leads held [] held := ⟨trivial, rfl⟩

theorem Leads.single {held : Contents} {n : Notification} (h : n.Fits held) :
    Leads held [n] (n.carry held) :=
  ⟨⟨h, trivial⟩, rfl⟩

theorem Leads.cons {held after : Contents} {n : Notification} {ns : List Notification}
    (h : n.Fits held) (k : Leads (n.carry held) ns after) : Leads held (n :: ns) after :=
  (Leads.single h).append k

end Notification

namespace Store

open Notification (Fits carry Leads)

/-- Every object is held under its own key. -/
def Keyed (s : Store) : Prop := ∀ ⦃key : Key⦄ ⦃o : Object⦄, s.objects[key]? = some o → o.key = key

theorem keyed_empty : Keyed {} := by
  intro key o h
  simp at h

/-! ### The objects after each operation -/

@[simp] theorem objects_insert (s : Store) (o : Object) :
    (s.insert o).objects = s.objects.insert o.key o :=
  rfl

@[simp] theorem objects_erase (s : Store) (key : Key) :
    (s.erase key).objects = s.objects.erase key := by
  unfold erase
  split
  · next h =>
    ext1 k
    rw [Key.getElem?_erase]
    split
    · next hk => rw [← h, hk]
    · rfl
  · rfl

/-- A change leads to the contents that its report leads to. -/
theorem objects_apply (s : Store) (change : Change) :
    (s.apply change).1.objects = (s.apply change).2.carry s.objects := by
  cases change with
  | upsert o => simp only [apply]; split <;> rfl
  | remove observed => exact s.objects_erase observed.key

/-! ### Objects stay under their own keys -/

theorem Keyed.insert {s : Store} (h : s.Keyed) (o : Object) : (s.insert o).Keyed := by
  intro key held hk
  rw [objects_insert, Key.getElem?_insert] at hk
  split at hk
  · next he =>
    cases hk
    exact he
  · exact h hk

theorem Keyed.erase {s : Store} (h : s.Keyed) (key : Key) : (s.erase key).Keyed := by
  intro k held hk
  rw [objects_erase, Key.getElem?_erase] at hk
  split at hk
  · cases hk
  · exact h hk

theorem Keyed.apply {s : Store} (h : s.Keyed) (change : Change) : (s.apply change).1.Keyed := by
  cases change with
  | upsert o => exact h.insert o
  | remove observed => exact h.erase observed.key

/-! ### Reports are histories -/

/-- The report of a change says the truth about the contents before it. -/
theorem fits_apply {s : Store} (h : s.Keyed) (change : Change) :
    (s.apply change).2.Fits s.objects := by
  cases change with
  | upsert o =>
    rcases ho : s.objects[o.key]? with - | old
    · simp only [Store.apply, get?, ho]
      exact ho
    · simp only [Store.apply, get?, ho]
      exact ⟨ho, h ho⟩
  | remove observed =>
    rcases ho : s.objects[observed.key]? with - | last
    · simp only [Store.apply, get?, ho]
      exact ho
    · simp only [Store.apply, get?, ho]
      exact ⟨ho, h ho⟩

theorem leads_apply {s : Store} (h : s.Keyed) (change : Change) :
    Leads s.objects [(s.apply change).2] (s.apply change).1.objects := by
  rw [objects_apply]
  exact .single (fits_apply h change)

theorem Keyed.applyListed {s : Store} (h : s.Keyed) (listed : List Object) :
    (s.applyListed listed).1.Keyed := by
  induction listed generalizing s with
  | nil => exact h
  | cons o rest ih =>
    rw [Store.applyListed]
    split
    · exact ih h
    · exact ih (h.apply (.upsert o))

theorem leads_applyListed {s : Store} (h : s.Keyed) (listed : List Object) :
    Leads s.objects (s.applyListed listed).2 (s.applyListed listed).1.objects := by
  induction listed generalizing s with
  | nil => exact .refl _
  | cons o rest ih =>
    rw [Store.applyListed]
    split
    · exact ih h
    · exact (leads_apply h (.upsert o)).append (ih (h.apply (.upsert o)))

theorem Keyed.removeHeld {s : Store} (h : s.Keyed) (keys : List Key) :
    (s.removeHeld keys).1.Keyed := by
  induction keys generalizing s with
  | nil => exact h
  | cons key rest ih =>
    rw [Store.removeHeld]
    split
    · exact ih h
    · exact ih (h.erase key)

/-- The removals at the end of a re-listing: each names the state that was held. -/
theorem leads_removeHeld {s : Store} (h : s.Keyed) (keys : List Key) :
    Leads s.objects (s.removeHeld keys).2 (s.removeHeld keys).1.objects := by
  induction keys generalizing s with
  | nil => exact .refl _
  | cons key rest ih =>
    rw [Store.removeHeld]
    split
    · exact ih h
    · next held hk =>
      -- the object lies under its own key, so what is reported is what is erased
      obtain rfl : held.key = key := h hk
      have hrest := ih (h.erase held.key)
      rw [objects_erase] at hrest
      exact .cons ⟨hk, rfl⟩ hrest

theorem Keyed.replace {s : Store} (h : s.Keyed) (listed : List Object) :
    (s.replace listed).1.Keyed :=
  (h.applyListed listed).removeHeld _

/-- A re-listing reports a history, silent about the objects whose version was held. -/
theorem leads_replace {s : Store} (h : s.Keyed) (listed : List Object) :
    Leads s.objects (s.replace listed).2 (s.replace listed).1.objects :=
  (leads_applyListed h listed).append (leads_removeHeld (h.applyListed listed) _)

/-! ### Everything again -/

theorem mem_toList {s : Store} (h : s.Keyed) {o : Object} :
    o ∈ s.toList ↔ s.objects[o.key]? = some o := by
  simp only [toList, List.mem_map, Prod.exists, exists_eq_right,
    Std.ExtTreeMap.mem_toList_iff_getElem?_eq_some]
  exact ⟨fun ⟨k, hk⟩ ↦ by rwa [h hk], fun ho ↦ ⟨o.key, ho⟩⟩

/-- The keys of the objects are the keys of the store, in their order. -/
theorem map_key_toList {s : Store} (h : s.Keyed) : s.toList.map Object.key = s.objects.keys := by
  rw [toList, List.map_map, ← Std.ExtTreeMap.map_fst_toList_eq_keys]
  refine List.map_congr_left fun p hp ↦ ?_
  exact h (Std.ExtTreeMap.mem_toList_iff_getElem?_eq_some.1 hp)

theorem insert_of_getElem? {held : Contents} {key : Key} {o : Object} (h : held[key]? = some o) :
    held.insert key o = held := by
  ext1 k
  rw [Key.getElem?_insert]
  split
  · next hk => rw [← h, hk]
  · rfl

/-- Delivering held objects again changes nothing. -/
theorem leads_updated_self {held : Contents} (os : List Object)
    (h : ∀ o ∈ os, held[o.key]? = some o) :
    Leads held (os.map fun o ↦ .updated o o) held := by
  induction os with
  | nil => exact .refl _
  | cons o os ih =>
    have ho : held[o.key]? = some o := h o List.mem_cons_self
    refine .cons ⟨ho, rfl⟩ ?_
    rw [carry, insert_of_getElem? ho]
    exact ih fun o ho ↦ h o (List.mem_cons_of_mem _ ho)

theorem leads_resync {s : Store} (h : s.Keyed) : Leads s.objects s.resync s.objects :=
  leads_updated_self s.toList fun _ ho ↦ (mem_toList h).1 ho

/-- Adding objects with keys of their own to contents that have none of these keys. -/
theorem history_map_added {held : Contents} (os : List Object) (hn : (os.map Object.key).Nodup)
    (h : ∀ o ∈ os, held[o.key]? = none) :
    Notification.History held (os.map .added) ∧
      ∀ key o, (Notification.carryAll held (os.map .added))[key]? = some o ↔
        (o ∈ os ∧ o.key = key) ∨ held[key]? = some o := by
  induction os generalizing held with
  | nil => simp
  | cons a os ih =>
    obtain ⟨ha, hn⟩ := List.nodup_cons.1 hn
    have habsent : held[a.key]? = none := h a List.mem_cons_self
    -- keys that are still to come stay absent
    have hrest : ∀ o ∈ os, (held.insert a.key a)[o.key]? = none := by
      intro o ho
      have hne : a.key ≠ o.key := fun he ↦ ha (he ▸ List.mem_map_of_mem ho)
      rw [Key.getElem?_insert, if_neg hne]
      exact h o (List.mem_cons_of_mem _ ho)
    obtain ⟨hh, hc⟩ := ih hn hrest
    refine ⟨⟨habsent, hh⟩, fun key o ↦ ?_⟩
    rw [List.map_cons, Notification.carryAll_cons, carry, hc, Key.getElem?_insert, List.mem_cons]
    by_cases hk : a.key = key
    · subst hk
      simp only [if_true, Option.some.injEq, habsent, reduceCtorEq, or_false]
      grind
    · simp only [hk, if_false]
      grind

theorem leads_replay {s : Store} (h : s.Keyed) : Leads ∅ s.replay s.objects := by
  have hn : (s.toList.map Object.key).Nodup := by
    rw [map_key_toList h]
    exact s.objects.nodup_keys
  have habsent : ∀ o ∈ s.toList, (∅ : Contents)[o.key]? = none := fun _ _ ↦ by simp
  obtain ⟨hh, hc⟩ := history_map_added s.toList hn habsent
  refine ⟨hh, Std.ExtTreeMap.ext_getElem? fun key ↦ Option.ext fun o ↦ ?_⟩
  rw [replay, hc, mem_toList h]
  constructor
  · rintro (⟨ho, rfl⟩ | ho)
    · exact ho
    · simp at ho
  · intro ho
    exact .inl ⟨by rwa [h ho], h ho⟩

end Store

end Informer
