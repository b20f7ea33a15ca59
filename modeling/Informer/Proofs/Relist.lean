import Informer.Proofs.History
import Informer.Reflector

/-!
# What a listing leaves in the store

A re-listing passes over an object whose version is held already. That is right when versions tell
objects apart: if every listed object that is passed over is the one that is held, the store holds
after the re-listing exactly what was listed (`getElem?_replace`).
-/

namespace Informer.Store

variable {s : Store}

/-- Every listed object that would be passed over is the object that is held. -/
def Discerns (s : Store) (listed : List Object) : Prop :=
  ∀ o ∈ listed, s.isCurrent o → s.objects[o.key]? = some o

theorem getElem?_apply_upsert (s : Store) (o : Object) (key : Key) :
    (s.apply (.upsert o)).1.objects[key]? = if o.key = key then some o else s.objects[key]? :=
  Key.getElem?_insert s.objects o.key o key

theorem isCurrent_congr {t : Store} {o : Object} (h : s.objects[o.key]? = t.objects[o.key]?) :
    s.isCurrent o = t.isCurrent o := by
  rw [isCurrent, isCurrent, get?, get?, h]

/-- Taking in listed objects with keys of their own. -/
theorem getElem?_applyListed {listed : List Object} (hn : (listed.map Object.key).Nodup)
    (h : s.Discerns listed) (key : Key) (o : Object) :
    (s.applyListed listed).1.objects[key]? = some o ↔
      (o ∈ listed ∧ o.key = key) ∨ ((∀ l ∈ listed, l.key ≠ key) ∧ s.objects[key]? = some o) := by
  induction listed generalizing s with
  | nil => simp [applyListed]
  | cons l rest ih =>
    obtain ⟨hl, hrest⟩ := List.nodup_cons.1 hn
    have hne : ∀ o ∈ rest, l.key ≠ o.key := fun o ho he ↦ hl (he ▸ List.mem_map_of_mem ho)
    rw [applyListed]
    split
    · next hcurrent =>
      -- passed over: the object is held already
      have hheld : s.objects[l.key]? = some l := h l List.mem_cons_self hcurrent
      rw [ih hrest fun o ho ↦ h o (List.mem_cons_of_mem _ ho)]
      by_cases hk : l.key = key
      · subst hk
        have habsent : ∀ o ∈ rest, o.key ≠ l.key := fun o ho ↦ (hne o ho).symm
        rw [hheld]
        grind
      · grind
    · -- taken in: the objects after it have other keys, so nothing changes for them
      have hstep : (s.apply (.upsert l)).1.Discerns rest := by
        intro o ho hcurrent
        have hget := getElem?_apply_upsert s l o.key
        rw [if_neg (hne o ho)] at hget
        rw [isCurrent_congr hget] at hcurrent
        rw [hget]
        exact h o (List.mem_cons_of_mem _ ho) hcurrent
      refine (ih hrest hstep).trans ?_
      rw [getElem?_apply_upsert]
      by_cases hk : l.key = key
      · subst hk
        have habsent : ∀ o ∈ rest, o.key ≠ l.key := fun o ho ↦ (hne o ho).symm
        grind
      · grind

theorem getElem?_removeHeld (s : Store) (keys : List Key) (key : Key) :
    (s.removeHeld keys).1.objects[key]? = if key ∈ keys then none else s.objects[key]? := by
  induction keys generalizing s with
  | nil => rfl
  | cons k rest ih =>
    rw [removeHeld]
    split
    · next hk =>
      have hnone : s.objects[k]? = none := hk
      rw [ih]
      grind
    · rw [ih, objects_erase, Key.getElem?_erase]
      grind

/-- **A re-listing leaves exactly what was listed**, if the objects have keys of their own and the
store tells apart what it passes over. -/
theorem getElem?_replace {listed : List Object} (hn : (listed.map Object.key).Nodup)
    (h : s.Discerns listed) (key : Key) (o : Object) :
    (s.replace listed).1.objects[key]? = some o ↔ o ∈ listed ∧ o.key = key := by
  have htaken := getElem?_applyListed hn h key o
  show ((s.applyListed listed).1.removeHeld _).1.objects[key]? = some o ↔ _
  rw [getElem?_removeHeld]
  by_cases hlisted : ∃ l ∈ listed, l.key = key
  · obtain ⟨l, hl, hkey⟩ := hlisted
    have hkept : key ∉ (s.applyListed listed).1.objects.keys.filter
        fun k ↦ !listed.any (·.key = k) := by
      intro hmem
      have hany := (List.mem_filter.1 hmem).2
      simp only [Bool.not_eq_true', List.any_eq_false, decide_eq_true_eq] at hany
      exact hany l hl hkey
    rw [if_neg hkept, htaken]
    constructor
    · rintro (hmem | ⟨hnone, -⟩)
      · exact hmem
      · exact absurd hkey (hnone l hl)
    · exact .inl
  · have hnone : ∀ l ∈ listed, l.key ≠ key := fun l hl he ↦ hlisted ⟨l, hl, he⟩
    constructor
    · intro hsome
      split at hsome
      · cases hsome
      · next hkept =>
        refine absurd (List.mem_filter.2 ⟨?_, ?_⟩) hkept
        · exact Std.ExtTreeMap.mem_keys.2
            (Std.ExtTreeMap.mem_iff_isSome_getElem?.2 (by rw [hsome]; rfl))
        · simpa using hnone
    · rintro ⟨ho, hkey⟩
      exact absurd hkey (hnone o ho)

/-! ### Payloads by key -/

/-- The payloads that are held, by key. -/
def payloads (s : Store) : Std.ExtTreeMap Key Json := s.objects.map fun _ o ↦ o.payload

theorem getElem?_payloads (s : Store) (key : Key) :
    s.payloads[key]? = s.objects[key]?.map (·.payload) :=
  Std.ExtTreeMap.getElem?_map

/-- The payloads of the objects of a store, in their order. -/
theorem map_payload_toList (s : Store) :
    s.toList.map (·.payload) = s.payloads.toList.map (·.2) := by
  rw [toList, payloads, Std.ExtTreeMap.toList_map, List.map_map, List.map_map]
  rfl

theorem payloads_insert (s : Store) (o : Object) :
    (s.insert o).payloads = s.payloads.insert o.key o.payload := by
  ext1 key
  rw [getElem?_payloads, objects_insert, Key.getElem?_insert, Key.getElem?_insert,
    getElem?_payloads]
  split <;> rfl

theorem payloads_erase (s : Store) (key : Key) : (s.erase key).payloads = s.payloads.erase key := by
  ext1 k
  rw [getElem?_payloads, objects_erase, Key.getElem?_erase, Key.getElem?_erase, getElem?_payloads]
  split <;> rfl

/-- Takes in what a watch yields; an error changes nothing, nor does a payload that is no object. -/
def receive (s : Store) : Delivery → Store
  | .mutation m => match Entry.changeOf m with
    | .ok change => (s.apply change).1
    | .error _ => s
  | .failure _ => s

/-- The objects read from payloads which are all objects. -/
theorem readPayloads_map_payload (kind : Kind) (os : List Object) :
    (Entry.readPayloads kind (os.map (·.payload))).1 = os := by
  induction os with
  | nil => rfl
  | cons o os ih =>
    rw [List.map_cons, Entry.readPayloads, Object.ofPayload_eq_ok_iff.2 rfl]
    exact congrArg _ ih

theorem exists_objects {ps : List (Key × Json)}
    (h : ∀ x ∈ ps, ∃ o : Object, o.key = x.1 ∧ o.payload = x.2) :
    ∃ os : List Object, os.map (fun o ↦ (o.key, o.payload)) = ps := by
  induction ps with
  | nil => exact ⟨[], rfl⟩
  | cons x ps ih =>
    obtain ⟨o, hkey, hpayload⟩ := h x List.mem_cons_self
    obtain ⟨os, hos⟩ := ih fun y hy ↦ h y (List.mem_cons_of_mem _ hy)
    exact ⟨o :: os, by rw [List.map_cons, hos, hkey, hpayload]⟩

/-- **A re-listing leaves the listed payloads**, if these are objects under their own keys, and
versions tell them from the objects that are held. -/
theorem payloads_replace {listed : Std.ExtTreeMap Key Json}
    (hlisted : ∀ key p, listed[key]? = some p → ∃ o : Object, o.key = key ∧ o.payload = p)
    (hversion : ∀ (key : Key) (held o : Object), s.objects[key]? = some held →
      listed[key]? = some o.payload → held.version? = o.version? → held = o) (kind : Kind) :
    (s.replace (Entry.readPayloads kind (listed.toList.map (·.2))).1).1.payloads = listed := by
  obtain ⟨os, hos⟩ := exists_objects fun x hx ↦
    hlisted x.1 x.2 (Std.ExtTreeMap.mem_toList_iff_getElem?_eq_some.1 hx)
  have hpayloads : listed.toList.map (·.2) = os.map (·.payload) := by
    rw [← hos, List.map_map]
    rfl
  have hkeys : (os.map Object.key).Nodup := by
    have hfst : os.map Object.key = listed.keys := by
      rw [← Std.ExtTreeMap.map_fst_toList_eq_keys, ← hos, List.map_map]
      rfl
    exact hfst ▸ listed.nodup_keys
  have hget : ∀ o ∈ os, listed[o.key]? = some o.payload := fun o ho ↦
    Std.ExtTreeMap.mem_toList_iff_getElem?_eq_some.1 (hos ▸ List.mem_map_of_mem ho)
  have hdiscerns : s.Discerns os := by
    intro o ho hcurrent
    rw [isCurrent] at hcurrent
    split at hcurrent
    · next held hheld =>
      obtain ⟨-, hsame⟩ := (Bool.and_eq_true _ _).mp hcurrent
      exact hversion o.key held o hheld (hget o ho) (eq_of_beq hsame) ▸ hheld
    · cases hcurrent
  rw [hpayloads, readPayloads_map_payload]
  ext key p
  rw [getElem?_payloads, Option.map_eq_some_iff]
  constructor
  · rintro ⟨o, ho, rfl⟩
    obtain ⟨hmem, rfl⟩ := (getElem?_replace hkeys hdiscerns key o).1 ho
    exact hget o hmem
  · intro hp
    have hmem : (key, p) ∈ os.map fun o ↦ (o.key, o.payload) :=
      hos ▸ Std.ExtTreeMap.mem_toList_iff_getElem?_eq_some.2 hp
    obtain ⟨o, ho, he⟩ := List.mem_map.1 hmem
    obtain ⟨rfl, rfl⟩ := Prod.mk.inj he
    exact ⟨o, (getElem?_replace hkeys hdiscerns _ o).2 ⟨ho, rfl⟩, rfl⟩

end Informer.Store
