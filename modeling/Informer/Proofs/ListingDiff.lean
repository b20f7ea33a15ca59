import Mathlib.Data.List.Infix
import Informer.Proofs.Relist

/-!
# What a re-listing reports

A store takes in a listing of any length, in which keys may occur again and versions may be missing.
An object of the listing *repeats* what is held under its key at that point when both have a version
and it is the same; it is then passed over. Every other object takes the place of what is held.

What is held under a key depends only on the objects of the listing with that key
(`heldAfter`, `applyListed_spec`), so the reports can be said without the store that changes on the
way: the objects that do not repeat what is held, in the order of the listing (`changes`), and then
the objects whose keys are not listed, by ascending key (`removals`). The main result,
`replace_exact`, says this of every store that any writes lead to, with what is held afterwards.

`Relist` has the case in which versions tell objects apart; here nothing is assumed of versions.
-/

namespace Informer.Store

/-! ### Stores that can come about -/

/-- What is done to a store: one change, or a full listing. -/
inductive Write where
  | apply (change : Change)
  | replace (listed : List Object)
deriving DecidableEq

/-- The store after a write. -/
def write (s : Store) : Write → Store
  | .apply change => (s.apply change).1
  | .replace listed => (s.replace listed).1

/-- The store that some writes lead to, from the empty one. -/
def afterAll (writes : List Write) : Store := writes.foldl write {}

theorem Keyed.write {s : Store} (h : s.Keyed) (w : Write) : (s.write w).Keyed := by
  cases w with
  | apply change => exact h.apply change
  | replace listed => exact h.replace listed

theorem keyed_afterAll (writes : List Write) : (afterAll writes).Keyed := by
  have hfold : ∀ s : Store, s.Keyed → (writes.foldl Store.write s).Keyed := by
    induction writes with
    | nil => exact fun _ h ↦ h
    | cons w writes ih => exact fun s h ↦ ih (s.write w) (h.write w)
  exact hfold {} keyed_empty

/-! ### One object of a listing -/

/-- A listed object repeats what is held: both have a version, and it is the same. -/
def Repeats (held? : Option Object) (o : Object) : Prop :=
  ∃ v, held?.bind Object.version? = some v ∧ o.version? = some v

instance (held? : Option Object) (o : Object) : Decidable (Repeats held? o) :=
  decidable_of_iff (o.version?.isSome ∧ held?.bind Object.version? = o.version?) (by
    rw [Repeats, Option.isSome_iff_exists]
    constructor
    · rintro ⟨⟨v, hv⟩, hsame⟩
      exact ⟨v, hsame.trans hv, hv⟩
    · rintro ⟨v, hheld, hv⟩
      exact ⟨⟨v, hv⟩, hheld.trans hv.symm⟩)

/-- What is held under the key of a listed object once the object was taken in. -/
def takeIn (held? : Option Object) (o : Object) : Option Object :=
  if Repeats held? o then held? else some o

/-- The report of an object that takes the place of what is held. -/
def report (held? : Option Object) (o : Object) : Notification :=
  match held? with
  | some old => .updated old o
  | none => .added o

/-- What is reported of a listed object, if anything. -/
def notice? (held? : Option Object) (o : Object) : Option Notification :=
  if Repeats held? o then none else some (report held? o)

@[simp] theorem key_report (held? : Option Object) (o : Object) : (report held? o).key = o.key := by
  cases held? <;> rfl

theorem isCurrent_iff {s : Store} {o : Object} : s.isCurrent o ↔ Repeats (s.get? o.key) o := by
  rw [isCurrent, Repeats]
  rcases s.get? o.key with - | held
  · simp
  · simp only [Bool.and_eq_true, beq_iff_eq, Option.isSome_iff_exists, Option.bind_some]
    constructor
    · rintro ⟨⟨v, hv⟩, hsame⟩
      exact ⟨v, hv, hsame ▸ hv⟩
    · rintro ⟨v, hheld, hv⟩
      exact ⟨⟨v, hheld⟩, hheld.trans hv.symm⟩

/-- A listed object leaves its version, and itself unless it repeats what is held. -/
theorem exists_takeIn (held? : Option Object) (o : Object) :
    ∃ held, takeIn held? o = some held ∧ held.version? = o.version? ∧
      (Repeats held? o → held? = some held) ∧ (¬ Repeats held? o → held = o) := by
  by_cases h : Repeats held? o
  · have ⟨v, hheld, hv⟩ := h
    obtain ⟨held, rfl, hversion⟩ := Option.bind_eq_some_iff.1 hheld
    exact ⟨held, if_pos h, hversion.trans hv.symm, fun _ ↦ rfl, fun hn ↦ absurd h hn⟩
  · exact ⟨o, if_neg h, rfl, fun hr ↦ absurd hr h, fun _ ↦ rfl⟩

/-! ### A whole listing -/

section Listing

variable (s : Store) (listed : List Object)

/-- What is held under a key once some objects of a listing were taken in. -/
def heldAfter (key : Key) : Option Object :=
  (listed.filter (·.key = key)).foldl takeIn (s.get? key)

/-- The reports of the listed objects, each against what the ones before it have left. -/
def changes : List Notification :=
  (listed.inits.zip listed).filterMap fun x ↦ notice? (s.heldAfter x.1 x.2.key) x.2

/-- The reports of the held objects whose keys are not listed. -/
def removals : List Notification :=
  (s.toList.filter fun o ↦ !listed.any (·.key = o.key)).map fun o ↦ .deleted (some o) o

/-- The held keys that are not listed, in their order. -/
def gone : List Key := s.objects.keys.filter fun key ↦ !listed.any (·.key = key)

end Listing

/-- The store `t` is the store `s` with a listed object taken in. -/
def TookIn (s : Store) (o : Object) (t : Store) : Prop :=
  ∀ key, t.get? key = if o.key = key then takeIn (s.get? o.key) o else s.get? key

section TookIn

variable {s t : Store} {o : Object} (h : s.TookIn o t)

include h

theorem heldAfter_cons (rest : List Object) (key : Key) :
    s.heldAfter (o :: rest) key = t.heldAfter rest key := by
  rw [heldAfter, heldAfter, h key]
  by_cases hkey : o.key = key
  · subst hkey
    simp
  · simp [hkey]

theorem changes_cons (rest : List Object) :
    s.changes (o :: rest) = (notice? (s.get? o.key) o).toList ++ t.changes rest := by
  have hrest : ((rest.inits.map (o :: ·)).zip rest).filterMap
      (fun x ↦ notice? (s.heldAfter x.1 x.2.key) x.2) = t.changes rest := by
    rw [List.zip_map_left, List.filterMap_map, changes]
    exact List.filterMap_congr fun x _ ↦ by
      simp only [Function.comp_apply, Prod.map_fst, Prod.map_snd, id, heldAfter_cons h]
  have hfirst : notice? (s.heldAfter [] o.key) o = notice? (s.get? o.key) o := rfl
  rw [changes, List.inits_cons, List.zip_cons_cons, List.filterMap_cons, hrest, hfirst]
  cases notice? (s.get? o.key) o <;> rfl

end TookIn

theorem tookIn_of_repeats {s : Store} {o : Object} (h : Repeats (s.get? o.key) o) :
    s.TookIn o s := by
  intro key
  rw [takeIn, if_pos h]
  split
  · next hkey => rw [hkey]
  · rfl

theorem tookIn_apply {s : Store} {o : Object} (h : ¬ Repeats (s.get? o.key) o) :
    s.TookIn o (s.apply (.upsert o)).1 := by
  intro key
  rw [takeIn, if_neg h]
  exact getElem?_apply_upsert s o key

/-- Taking in a listing leaves under every key what the objects with that key leave, and reports
the changes. -/
theorem applyListed_spec (s : Store) (listed : List Object) :
    (s.applyListed listed).2 = s.changes listed ∧
      ∀ key, (s.applyListed listed).1.get? key = s.heldAfter listed key := by
  induction listed generalizing s with
  | nil => exact ⟨rfl, fun _ ↦ rfl⟩
  | cons o rest ih =>
    rw [applyListed]
    by_cases h : Repeats (s.get? o.key) o
    · have htook := tookIn_of_repeats h
      have hnotice : notice? (s.get? o.key) o = none := if_pos h
      rw [if_pos (isCurrent_iff.2 h), changes_cons htook, hnotice]
      exact ⟨(ih s).1, fun key ↦ ((ih s).2 key).trans (heldAfter_cons htook rest key).symm⟩
    · have htook := tookIn_apply h
      obtain ⟨hreports, hheld⟩ := ih (s.apply (.upsert o)).1
      have hnotice : notice? (s.get? o.key) o = some (s.apply (.upsert o)).2 := if_neg h
      rw [if_neg fun hc ↦ h (isCurrent_iff.1 hc), changes_cons htook, hnotice]
      exact ⟨congrArg _ hreports, fun key ↦ (hheld key).trans (heldAfter_cons htook rest key).symm⟩

/-! ### What is held at the end -/

section Held

variable {s : Store} {listed : List Object}

theorem filter_key_eq_nil {key : Key} (h : key ∉ listed.map Object.key) :
    listed.filter (·.key = key) = [] :=
  List.filter_eq_nil_iff.2 fun _ ho hkey ↦ h (of_decide_eq_true hkey ▸ List.mem_map_of_mem ho)

/-- Objects with other keys leave what is held. -/
theorem heldAfter_of_notMem {key : Key} (h : key ∉ listed.map Object.key) :
    s.heldAfter listed key = s.get? key := by
  rw [heldAfter, filter_key_eq_nil h, List.foldl_nil]

/-- What is held under a key comes from the last listed object with it. -/
theorem heldAfter_last {before later : List Object} {o : Object}
    (h : o.key ∉ later.map Object.key) :
    s.heldAfter (before ++ o :: later) o.key = takeIn (s.heldAfter before o.key) o := by
  rw [heldAfter, heldAfter, List.filter_append, List.filter_cons_of_pos (by simp),
    filter_key_eq_nil h, List.foldl_append, List.foldl_cons, List.foldl_nil]

/-- A key that is listed is listed for a last time. -/
theorem exists_last {key : Key} (h : key ∈ listed.map Object.key) :
    ∃ before o later, listed = before ++ o :: later ∧ o.key = key ∧
      key ∉ later.map Object.key := by
  induction listed with
  | nil => cases h
  | cons a rest ih =>
    by_cases hrest : key ∈ rest.map Object.key
    · obtain ⟨before, o, later, rfl, hkey, hlater⟩ := ih hrest
      exact ⟨a :: before, o, later, rfl, hkey, hlater⟩
    · exact ⟨[], a, rest, rfl, ((List.mem_cons.1 h).resolve_right hrest).symm, hrest⟩

theorem any_key_iff {key : Key} : listed.any (·.key = key) ↔ key ∈ listed.map Object.key := by
  simp [List.any_eq_true, List.mem_map]

theorem mem_gone_iff {key : Key} :
    key ∈ s.gone listed ↔ (s.get? key).isSome ∧ key ∉ listed.map Object.key := by
  rw [gone, List.mem_filter, Std.ExtTreeMap.mem_keys, Std.ExtTreeMap.mem_iff_isSome_getElem?,
    Bool.not_eq_true', ← Bool.not_eq_true, any_key_iff]
  rfl

theorem get?_replace (key : Key) :
    (s.replace listed).1.get? key =
      if key ∈ listed.map Object.key then s.heldAfter listed key else none := by
  have hheld := (applyListed_spec s listed).2 key
  show ((s.applyListed listed).1.removeHeld ((s.applyListed listed).1.gone listed)).1.objects[key]?
    = _
  rw [getElem?_removeHeld, ← hheld]
  by_cases hlisted : key ∈ listed.map Object.key
  · rw [if_neg fun h ↦ (mem_gone_iff.1 h).2 hlisted, if_pos hlisted]
    rfl
  · rw [if_neg hlisted, ite_eq_left_iff]
    exact fun h ↦ Option.not_isSome_iff_eq_none.1 fun hsome ↦ h (mem_gone_iff.2 ⟨hsome, hlisted⟩)

/-- After a re-listing a listed key holds the version that was listed last for it, and the object
listed last unless that repeated what was held then. -/
theorem get?_replace_last {before later : List Object} {o : Object}
    (h : o.key ∉ later.map Object.key) :
    (s.replace (before ++ o :: later)).1.get? o.key = takeIn (s.heldAfter before o.key) o := by
  have hmem : o.key ∈ (before ++ o :: later).map Object.key := by simp
  rw [get?_replace, if_pos hmem, heldAfter_last h]

theorem isSome_get?_replace (key : Key) :
    ((s.replace listed).1.get? key).isSome ↔ key ∈ listed.map Object.key := by
  by_cases hlisted : key ∈ listed.map Object.key
  · obtain ⟨before, o, later, rfl, rfl, hlater⟩ := exists_last hlisted
    obtain ⟨held, htake, -⟩ := exists_takeIn (s.heldAfter before o.key) o
    rw [get?_replace_last hlater, htake]
    exact iff_of_true rfl hlisted
  · rw [get?_replace, if_neg hlisted]
    exact iff_of_false Bool.false_ne_true hlisted

end Held

/-! ### What is reported -/

/-- The removals, each in the state that was held. -/
theorem removeHeld_report {s : Store} {keys : List Key} (hn : keys.Nodup) :
    (s.removeHeld keys).2 =
      keys.filterMap fun key ↦ (s.get? key).map fun held ↦ .deleted (some held) held := by
  induction keys generalizing s with
  | nil => rfl
  | cons key rest ih =>
    obtain ⟨hkey, hrest⟩ := List.nodup_cons.1 hn
    rw [removeHeld, List.filterMap_cons]
    rcases hget : s.get? key with - | held
    · exact ih hrest
    · -- the keys that are still to come are others, so they hold what they held
      have hsame : ∀ k ∈ rest, (s.erase key).get? k = s.get? k := by
        intro k hk
        have hne : key ≠ k := fun he ↦ hkey (he ▸ hk)
        rw [get?, objects_erase, Key.getElem?_erase, if_neg hne]
        rfl
      refine congrArg (List.cons _) ((ih hrest).trans ?_)
      exact List.filterMap_congr fun k hk ↦ by rw [hsame k hk]

theorem ascending_gone (s : Store) (listed : List Object) :
    (s.gone listed).Pairwise (compare · · = .lt) :=
  Std.ExtTreeMap.ordered_keys.filter _

theorem nodup_gone (s : Store) (listed : List Object) : (s.gone listed).Nodup :=
  s.objects.nodup_keys.filter _

/-- Lists of ascending keys with the same members are equal. -/
theorem eq_of_ascending {ks ls : List Key} (hk : ks.Pairwise (compare · · = .lt))
    (hl : ls.Pairwise (compare · · = .lt)) (h : ∀ key, key ∈ ks ↔ key ∈ ls) : ks = ls := by
  have hne : ∀ a b : Key, compare a b = .lt → a ≠ b := by
    rintro a b hlt rfl
    simp at hlt
  have hperm : ks.Perm ls :=
    (List.perm_ext_iff_of_nodup (hk.imp (hne _ _)) (hl.imp (hne _ _))).2 h
  refine hperm.eq_of_pairwise (fun a b _ _ hab hba ↦ ?_) hk hl
  have hswap : compare a b = (compare b a).swap := Std.OrientedCmp.eq_swap
  rw [hab, hba] at hswap
  cases hswap

/-- Taking in a listing leaves the keys that are not listed as they were. -/
theorem gone_applyListed (s : Store) (listed : List Object) :
    (s.applyListed listed).1.gone listed = s.gone listed := by
  refine eq_of_ascending (ascending_gone _ _) (ascending_gone _ _) fun key ↦ ?_
  rw [mem_gone_iff, mem_gone_iff, (applyListed_spec s listed).2 key]
  refine and_congr_left fun hkey ↦ ?_
  rw [heldAfter_of_notMem hkey]

/-- The removals are those of the keys that are not listed. -/
theorem removals_eq {s : Store} (hs : s.Keyed) (listed : List Object) :
    s.removals listed =
      (s.gone listed).filterMap fun key ↦
        (s.get? key).map fun held ↦ .deleted (some held) held := by
  rw [gone, ← map_key_toList hs, List.filter_map, List.filterMap_map, removals,
    ← List.filterMap_eq_map]
  refine List.filterMap_congr fun o ho ↦ ?_
  have hget : s.get? o.key = some o := (mem_toList hs).1 (List.mem_filter.1 ho).1
  rw [Function.comp_apply, Function.comp_apply, hget, Option.map_some]

/-- The keys of the removals are the held keys that are not listed. -/
theorem map_key_removals {s : Store} (hs : s.Keyed) (listed : List Object) :
    (s.removals listed).map Notification.key = s.gone listed := by
  rw [gone, ← map_key_toList hs, List.filter_map, removals, List.map_map]
  rfl

/-- **What a re-listing reports**: the changes, then the removals. -/
theorem replace_report {s : Store} (hs : s.Keyed) (listed : List Object) :
    (s.replace listed).2 = s.changes listed ++ s.removals listed := by
  have hremoved : ((s.applyListed listed).1.removeHeld ((s.applyListed listed).1.gone listed)).2 =
      s.removals listed := by
    rw [removeHeld_report (nodup_gone _ _), gone_applyListed, removals_eq hs]
    refine List.filterMap_congr fun key hkey ↦ ?_
    rw [(applyListed_spec s listed).2, heldAfter_of_notMem (mem_gone_iff.1 hkey).2]
  show (s.applyListed listed).2 ++ _ = _
  rw [(applyListed_spec s listed).1]
  exact congrArg _ hremoved

/-- The changes are about listed keys, each object of the listing giving at most one. -/
theorem sublist_map_key_changes (s : Store) (listed : List Object) :
    ((s.changes listed).map Notification.key).Sublist (listed.map Object.key) := by
  rw [← (applyListed_spec s listed).1]
  induction listed generalizing s with
  | nil => exact .slnil
  | cons o rest ih =>
    rw [applyListed]
    split
    · exact (ih s).cons o.key
    · have hkey : (s.apply (.upsert o)).2.key = o.key := key_report (s.get? o.key) o
      rw [List.map_cons, List.map_cons, hkey]
      exact (ih (s.apply (.upsert o)).1).cons_cons o.key

/-- A listing whose keys are distinct is reported with at most one notification for each key. -/
theorem nodup_map_key_replace {s : Store} (hs : s.Keyed) {listed : List Object}
    (hn : (listed.map Object.key).Nodup) :
    ((s.replace listed).2.map Notification.key).Nodup := by
  have hchanges := sublist_map_key_changes s listed
  rw [replace_report hs, List.map_append, map_key_removals hs]
  refine List.nodup_append.2 ⟨hchanges.nodup hn, nodup_gone s listed, ?_⟩
  rintro key hchanged _ hgone rfl
  exact (mem_gone_iff.1 hgone).2 (hchanges.subset hchanged)

/-! ### A listing taken in again -/

theorem applyListed_of_repeats {s : Store} {listed : List Object}
    (h : ∀ o ∈ listed, Repeats (s.get? o.key) o) : s.applyListed listed = (s, []) := by
  induction listed with
  | nil => rfl
  | cons o rest ih =>
    rw [applyListed, if_pos (isCurrent_iff.2 (h o List.mem_cons_self))]
    exact ih fun l hl ↦ h l (List.mem_cons_of_mem _ hl)

/-- A listing that only repeats what is held, and lacks nothing of it, changes nothing. -/
theorem replace_of_repeats {s : Store} {listed : List Object}
    (h : ∀ o ∈ listed, Repeats (s.get? o.key) o)
    (hall : ∀ key, (s.get? key).isSome → key ∈ listed.map Object.key) :
    s.replace listed = (s, []) := by
  have hgone : s.gone listed = [] := List.eq_nil_iff_forall_not_mem.2 fun key hkey ↦
    (mem_gone_iff.1 hkey).2 (hall key (mem_gone_iff.1 hkey).1)
  have hremoved : s.removeHeld (s.gone listed) = (s, []) := by rw [hgone, removeHeld]
  rw [replace, applyListed_of_repeats h]
  exact congrArg (fun r ↦ (r.1, [] ++ r.2)) hremoved

/-- A listing with distinct keys and with versions is repeated by the store that took it in. -/
theorem replace_replace {s : Store} {listed : List Object} (hn : (listed.map Object.key).Nodup)
    (hversion : ∀ o ∈ listed, o.version?.isSome) :
    (s.replace listed).1.replace listed = ((s.replace listed).1, []) := by
  refine replace_of_repeats (fun o ho ↦ ?_) fun key ↦ (isSome_get?_replace key).1
  obtain ⟨before, later, rfl⟩ := List.append_of_mem ho
  have hlast : o.key ∉ later.map Object.key := by
    rw [List.map_append, List.map_cons] at hn
    exact (List.nodup_cons.1 (List.nodup_append.1 hn).2.1).1
  obtain ⟨held, htake, hsame, -⟩ := exists_takeIn (s.heldAfter before o.key) o
  obtain ⟨v, hv⟩ := Option.isSome_iff_exists.1 (hversion o ho)
  rw [get?_replace_last hlast, htake]
  exact ⟨v, hsame.trans hv, hv⟩

/-! ### The main result -/

/-- **A re-listing is exact and minimal**, for any store and any listing. The keys held afterwards
are those listed. Each holds the version that was listed last for it, and the object listed last
unless this repeated what was held at that point. Reported are the listed objects that did not
repeat, in the order of the listing, and then each held object whose key is not listed, by ascending
key. If the keys of the listing are distinct, no key is reported twice; and if all of it has
versions, taking it in again is silent and changes nothing. -/
theorem replace_exact (writes : List Write) (listed : List Object) :
    let s := afterAll writes
    let t := (s.replace listed).1
    let reports := (s.replace listed).2
    (∀ key, (t.get? key).isSome ↔ key ∈ listed.map Object.key) ∧
    (∀ before o later, listed = before ++ o :: later → o.key ∉ later.map Object.key →
      ∃ held, t.get? o.key = some held ∧ held.version? = o.version? ∧
        (Repeats (s.heldAfter before o.key) o → s.heldAfter before o.key = some held) ∧
        (¬ Repeats (s.heldAfter before o.key) o → held = o)) ∧
    reports = s.changes listed ++ s.removals listed ∧
    (∀ key, key ∈ (s.removals listed).map Notification.key ↔
      (s.get? key).isSome ∧ key ∉ listed.map Object.key) ∧
    ((s.removals listed).map Notification.key).Pairwise (compare · · = .lt) ∧
    ((listed.map Object.key).Nodup →
      (reports.map Notification.key).Nodup ∧
        ((∀ o ∈ listed, o.version?.isSome) → t.replace listed = (t, []))) := by
  intro s t reports
  have hs : s.Keyed := keyed_afterAll writes
  refine ⟨isSome_get?_replace, ?_, replace_report hs listed, fun key ↦ ?_, ?_, fun hn ↦
    ⟨nodup_map_key_replace hs hn, replace_replace hn⟩⟩
  · rintro before o later rfl hlast
    obtain ⟨held, htake, hheld⟩ := exists_takeIn (s.heldAfter before o.key) o
    exact ⟨held, (get?_replace_last hlast).trans htake, hheld⟩
  · rw [map_key_removals hs]
    exact mem_gone_iff
  · rw [map_key_removals hs]
    exact ascending_gone s listed

/-- A listing gives a held object anew with the version that is held, which leaves the held state,
and adds another one; taking it in again is silent. -/
theorem replace_exact_of_repeat :
    let held : Object := ⟨.object [("metadata", .object [("name", .string "a"),
      ("resourceVersion", .string "1")])], { name := "a", version? := some "1" }, rfl⟩
    let relisted : Object := ⟨.object [("metadata", .object [("name", .string "a"),
      ("resourceVersion", .string "1")]), ("spec", .null)],
      { name := "a", version? := some "1" }, rfl⟩
    let new : Object := ⟨.object [("metadata", .object [("name", .string "b"),
      ("resourceVersion", .string "1")])], { name := "b", version? := some "1" }, rfl⟩
    let t := ((afterAll [.apply (.upsert held)]).replace [relisted, new]).1
    t.get? held.key = some held ∧ t.get? new.key = some new ∧
      t.replace [relisted, new] = (t, []) := by
  intro held relisted new t
  obtain ⟨-, hlast, -, -, -, hdistinct⟩ :=
    replace_exact [.apply (.upsert held)] [relisted, new]
  obtain ⟨x, hx, -, hrepeats, -⟩ := hlast [] relisted [new] rfl (by decide)
  obtain ⟨y, hy, -, -, hnew⟩ := hlast [relisted] new [] rfl (by decide)
  have hheld : (afterAll [.apply (.upsert held)]).heldAfter [] relisted.key = some held := by
    decide
  have hsame : some held = some x := hheld ▸ hrepeats (hheld ▸ ⟨"1", rfl, rfl⟩)
  refine ⟨hsame ▸ hx, ?_, (hdistinct (by decide)).2 (by decide)⟩
  obtain rfl : y = new := hnew (by decide)
  exact hy

end Informer.Store
