import Informer.Proofs.ListingDiff

/-!
# The index by namespace

A store keeps the keys of its namespaced objects a second time, by namespace, and lists a namespace
through this index. A key that is missing there, or left over, is not noticed: the listing passes
over keys that are not held. The rule is that the index is a function of the keys that are held
(`Exact`), and loses a namespace with its last key.

`Exact.enter` and `Exact.leave` say what the two ways to change the index do to the keys that it
accounts for. An insertion and a removal change the objects by the same key, and every write is made
of these two (`afterAll_of_kept`), so the index stays exact (`indexed_afterAll`). What is read
through it is then the listing of all objects, filtered (`listNamespace_eq`).
-/

namespace Informer.Store

/-! ### The index alone -/

section Index

variable {index : Std.ExtTreeMap String (Std.ExtTreeSet Key)} {held : Key → Prop}

/-- The keys that the index has under a namespace. -/
def keysIn (index : Std.ExtTreeMap String (Std.ExtTreeSet Key)) (ns : String) :
    Std.ExtTreeSet Key :=
  index[ns]?.getD ∅

/-- The index accounts for some keys: under a namespace it has those that lie in it, and it has no
namespace without any. -/
structure Exact (index : Std.ExtTreeMap String (Std.ExtTreeSet Key)) (held : Key → Prop) :
    Prop where
  mem_iff : ∀ (ns : String) (key : Key), key ∈ keysIn index ns ↔ key.ns? = some ns ∧ held key
  nonempty : ∀ (ns : String) (keys : Std.ExtTreeSet Key), index[ns]? = some keys → keys ≠ ∅

theorem exact_empty : Exact ∅ fun _ ↦ False where
  mem_iff ns key := by simp [keysIn]
  nonempty ns keys h := by simp at h

theorem Exact.congr {held' : Key → Prop} (h : Exact index held) (hh : ∀ key, held key ↔ held' key) :
    Exact index held' where
  mem_iff ns key := by rw [h.mem_iff, hh]
  nonempty := h.nonempty

/-- What is found after a key was entered. -/
theorem getElem?_enterIndex (index : Std.ExtTreeMap String (Std.ExtTreeSet Key)) (key : Key)
    (ns : String) :
    (enterIndex index key)[ns]? =
      if key.ns? = some ns then some ((keysIn index ns).insert key) else index[ns]? := by
  unfold enterIndex keysIn
  rcases key.ns? with - | own
  · simp
  · rw [Std.ExtTreeMap.getElem?_insert]
    by_cases hns : own = ns
    · simp [hns]
    · simp [hns]

/-- What is found after a key was taken out. -/
theorem getElem?_leaveIndex (index : Std.ExtTreeMap String (Std.ExtTreeSet Key)) (key : Key)
    (ns : String) :
    (leaveIndex index key)[ns]? =
      if key.ns? = some ns then
        index[ns]?.bind fun keys : Std.ExtTreeSet Key compare ↦
          if (keys.erase key).isEmpty then none else some (keys.erase key)
      else index[ns]? := by
  unfold leaveIndex
  rcases key.ns? with - | own
  · simp
  · dsimp only
    rcases hkeys : index[own]? with - | keys
    · by_cases hns : own = ns
      · rw [if_pos (congrArg some hns), ← hns, hkeys, Option.bind_none]
      · rw [if_neg (by simpa using hns)]
    · by_cases hns : own = ns
      · rw [if_pos (congrArg some hns), ← hns, hkeys, Option.bind_some]
        dsimp only
        split
        · exact Std.ExtTreeMap.getElem?_erase_self
        · exact Std.ExtTreeMap.getElem?_insert_self
      · rw [if_neg (by simpa using hns)]
        dsimp only
        split
        · rw [Std.ExtTreeMap.getElem?_erase, if_neg (by simpa using hns)]
        · rw [Std.ExtTreeMap.getElem?_insert, if_neg (by simpa using hns)]

/-- A key that was entered is accounted for beside the others. -/
theorem Exact.enter (h : Exact index held) (key : Key) :
    Exact (enterIndex index key) fun k ↦ key = k ∨ held k where
  mem_iff ns k := by
    rw [keysIn, getElem?_enterIndex]
    split
    · next hns =>
      rw [Option.getD_some, Std.ExtTreeSet.mem_insert, h.mem_iff, Std.LawfulEqCmp.compare_eq_iff_eq]
      constructor
      · rintro (rfl | ⟨hk, hheld⟩)
        · exact ⟨hns, .inl rfl⟩
        · exact ⟨hk, .inr hheld⟩
      · rintro ⟨hk, heq | hheld⟩
        · exact .inl heq
        · exact .inr ⟨hk, hheld⟩
    · next hns =>
      rw [← keysIn, h.mem_iff]
      refine and_congr_right fun hk ↦ (or_iff_right ?_).symm
      rintro rfl
      exact hns hk
  nonempty ns keys hkeys := by
    rw [getElem?_enterIndex] at hkeys
    split at hkeys
    · cases hkeys
      rintro hempty
      exact Std.ExtTreeSet.not_mem_empty (hempty ▸ Std.ExtTreeSet.mem_insert_self)
    · exact h.nonempty ns keys hkeys

/-- A key that was taken out is the only one that is no longer accounted for. -/
theorem Exact.leave (h : Exact index held) (key : Key) :
    Exact (leaveIndex index key) fun k ↦ key ≠ k ∧ held k where
  mem_iff ns k := by
    rw [keysIn, getElem?_leaveIndex]
    split
    · -- an emptied set is left out, which is no different from an empty one
      have hfound : ((index[ns]?.bind fun keys : Std.ExtTreeSet Key compare ↦
          if (keys.erase key).isEmpty then none else some (keys.erase key)).getD ∅) =
          (keysIn index ns).erase key := by
        rw [keysIn]
        rcases index[ns]? with - | keys
        · simp
        · rw [Option.bind_some, Option.getD_some]
          split
          · next hempty => rw [Std.ExtTreeSet.isEmpty_iff.1 hempty, Option.getD_none]
          · rfl
      rw [hfound, Std.ExtTreeSet.mem_erase, h.mem_iff, Ne, Std.LawfulEqCmp.compare_eq_iff_eq]
      exact and_left_comm
    · next hns =>
      rw [← keysIn, h.mem_iff]
      refine and_congr_right fun hk ↦ (and_iff_right ?_).symm
      rintro rfl
      exact hns hk
  nonempty ns keys hkeys := by
    rw [getElem?_leaveIndex] at hkeys
    split at hkeys
    · obtain ⟨old, -, hold⟩ := Option.bind_eq_some_iff.1 hkeys
      split at hold
      · cases hold
      · next hne =>
        cases hold
        exact fun hempty ↦ hne (Std.ExtTreeSet.isEmpty_iff.2 hempty)
    · exact h.nonempty ns keys hkeys

end Index

/-! ### Writes are made of insertions and removals -/

section Kept

variable {P : Store → Prop} (hinsert : ∀ s o, P s → P (s.insert o))
  (herase : ∀ s key, P s → P (s.erase key))

include hinsert in
theorem applyListed_of_kept {s : Store} (h : P s) (listed : List Object) :
    P (s.applyListed listed).1 := by
  induction listed generalizing s with
  | nil => exact h
  | cons o rest ih =>
    rw [applyListed]
    split
    · exact ih h
    · exact ih (hinsert s o h)

include herase in
theorem removeHeld_of_kept {s : Store} (h : P s) (keys : List Key) : P (s.removeHeld keys).1 := by
  induction keys generalizing s with
  | nil => exact h
  | cons key rest ih =>
    rw [removeHeld]
    split
    · exact ih h
    · exact ih (herase s key h)

include hinsert herase

/-- What insertions and removals keep, every write keeps. -/
theorem write_of_kept {s : Store} (h : P s) (w : Write) : P (s.write w) := by
  cases w with
  | apply change =>
    cases change with
    | upsert o => exact hinsert s o h
    | remove observed => exact herase s observed.key h
  | replace listed => exact removeHeld_of_kept herase (applyListed_of_kept hinsert h listed) _

theorem afterAll_of_kept (h : P {}) (writes : List Write) : P (afterAll writes) := by
  have hfold : ∀ s, P s → P (writes.foldl write s) := by
    induction writes with
    | nil => exact fun _ h ↦ h
    | cons w writes ih => exact fun s h ↦ ih (s.write w) (write_of_kept hinsert herase h w)
  exact hfold {} h

end Kept

/-! ### The index of a store -/

/-- The index accounts for the objects that are held. -/
def Indexed (s : Store) : Prop := Exact s.byNamespace fun key ↦ (s.get? key).isSome

theorem indexed_empty : Indexed {} := exact_empty.congr fun key ↦ by simp [get?]

theorem Indexed.insert {s : Store} (h : s.Indexed) (o : Object) : (s.insert o).Indexed := by
  refine (h.enter o.key).congr fun key ↦ ?_
  rw [get?, get?, objects_insert, Key.getElem?_insert]
  split
  · next hkey => simp [hkey]
  · next hkey => simp [hkey]

theorem Indexed.erase {s : Store} (h : s.Indexed) (key : Key) : (s.erase key).Indexed := by
  rcases hheld : s.objects[key]? with - | o
  · rw [Store.erase, hheld]
    exact h
  · have hindex : (s.erase key).byNamespace = leaveIndex s.byNamespace key := by
      rw [Store.erase, hheld]
    rw [Indexed, hindex]
    refine (h.leave key).congr fun k ↦ ?_
    rw [get?, get?, objects_erase, Key.getElem?_erase]
    split
    · next hkey => simp [hkey]
    · next hkey => simp [hkey]

/-- **The index stays exact**, whatever is written. -/
theorem indexed_afterAll (writes : List Write) : (afterAll writes).Indexed :=
  afterAll_of_kept (fun _ o h ↦ h.insert o) (fun _ key h ↦ h.erase key) indexed_empty writes

/-! ### Reading -/

section Reading

variable {s : Store}

/-- The objects are listed by ascending key. -/
theorem ascending_toList (hs : s.Keyed) :
    s.toList.Pairwise fun a b ↦ compare a.key b.key = .lt := by
  rw [← List.pairwise_map (f := Object.key) (R := fun a b ↦ compare a b = .lt),
    map_key_toList hs]
  exact Std.ExtTreeMap.ordered_keys

/-- What is found under a key is the object that is listed with it. -/
theorem get?_eq_some_iff (hs : s.Keyed) {key : Key} {o : Object} :
    s.get? key = some o ↔ o ∈ s.toList ∧ o.key = key := by
  rw [mem_toList hs]
  constructor
  · intro h
    obtain rfl : o.key = key := hs h
    exact ⟨h, rfl⟩
  · rintro ⟨h, rfl⟩
    exact h

/-- The keys of a namespace in the index are those of its objects, in the order of the objects. -/
theorem keys_eq_of_indexed (hs : s.Keyed) (hi : s.Indexed) (ns : String) :
    (keysIn s.byNamespace ns).toList =
      (s.toList.filter (·.metadata.ns? = some ns)).map Object.key := by
  refine eq_of_ascending Std.ExtTreeSet.ordered_toList ?_ fun key ↦ ?_
  · rw [List.pairwise_map]
    exact (ascending_toList hs).filter _
  · rw [Std.ExtTreeSet.mem_toList, hi.mem_iff, Option.isSome_iff_exists]
    simp only [List.mem_map, List.mem_filter, decide_eq_true_eq]
    constructor
    · rintro ⟨hns, o, ho⟩
      obtain ⟨hmem, rfl⟩ := (get?_eq_some_iff hs).1 ho
      exact ⟨o, ⟨hmem, hns⟩, rfl⟩
    · rintro ⟨o, ⟨hmem, hns⟩, rfl⟩
      exact ⟨hns, o, (get?_eq_some_iff hs).2 ⟨hmem, rfl⟩⟩

/-- The listing of a namespace is that of all objects, filtered. -/
theorem listNamespace_eq (hs : s.Keyed) (hi : s.Indexed) (ns : String) :
    s.listNamespace ns = s.toList.filter (·.metadata.ns? = some ns) := by
  rw [listNamespace, ← keysIn, keys_eq_of_indexed hs hi, List.filterMap_map]
  -- every key that the index has leads back to its object
  have hback : ∀ o ∈ s.toList.filter (·.metadata.ns? = some ns),
      ((fun key ↦ s.objects[key]?) ∘ Object.key) o = some o :=
    fun o ho ↦ (mem_toList hs).1 (List.mem_filter.1 ho).1
  rw [List.filterMap_congr hback, List.filterMap_some]

theorem size_eq_length_toList (s : Store) : s.size = s.toList.length := by
  rw [size, toList, List.length_map, Std.ExtTreeMap.length_toList]

end Reading

/-- **The index by namespace is exact**, in every store that any writes lead to. Each object is held
under its own key. The index has, under each namespace, the keys of the objects in it and no others;
it has no namespace without a key, and no key that is cluster-scoped. So the listing of a namespace,
the empty string included, is the listing of all objects filtered by it, in the same ascending order
of keys; the size is the number of listed objects; and what is found under a key is the one object
that is listed with it. -/
theorem namespace_index_exact (writes : List Write) :
    let s := afterAll writes
    (∀ key o, s.get? key = some o → o.key = key) ∧
    (∀ ns key, key ∈ keysIn s.byNamespace ns ↔
      ∃ o ∈ s.toList, o.metadata.ns? = some ns ∧ o.key = key) ∧
    (∀ ns : String, s.byNamespace[ns]? ≠ some ∅) ∧
    (∀ ns, ∀ key ∈ keysIn s.byNamespace ns, key.ns? ≠ none) ∧
    (∀ ns, s.listNamespace ns = s.toList.filter (·.metadata.ns? = some ns) ∧
      (s.listNamespace ns).Pairwise fun a b ↦ compare a.key b.key = .lt) ∧
    s.toList.Pairwise (fun a b ↦ compare a.key b.key = .lt) ∧
    s.size = s.toList.length ∧
    ∀ key o, s.get? key = some o ↔ o ∈ s.toList ∧ o.key = key := by
  intro s
  have hs : s.Keyed := keyed_afterAll writes
  have hi : s.Indexed := indexed_afterAll writes
  refine ⟨fun key o ho ↦ hs ho, fun ns key ↦ ?_, fun ns hempty ↦ ?_,
    fun ns key hkey ↦ ?_, fun ns ↦ ⟨listNamespace_eq hs hi ns, ?_⟩, ascending_toList hs,
    size_eq_length_toList s, fun key o ↦ get?_eq_some_iff hs⟩
  · rw [← Std.ExtTreeSet.mem_toList, keys_eq_of_indexed hs hi]
    simp only [List.mem_map, List.mem_filter, decide_eq_true_eq, and_assoc]
  · exact hi.nonempty ns ∅ hempty rfl
  · rw [((hi.mem_iff ns key).1 hkey).1]
    exact Option.some_ne_none ns
  · rw [listNamespace_eq hs hi]
    exact (ascending_toList hs).filter _

/-- In the empty namespace one of two objects is left, and the object without a namespace is not
among them. -/
theorem namespace_index_exact_of_removal :
    let a : Object := ⟨.object [("metadata", .object [("name", .string "a"),
      ("namespace", .string "")])], { name := "a", ns? := some "" }, rfl⟩
    let b : Object := ⟨.object [("metadata", .object [("name", .string "b"),
      ("namespace", .string "")])], { name := "b", ns? := some "" }, rfl⟩
    let wide : Object := ⟨.object [("metadata", .object [("name", .string "a")])],
      { name := "a" }, rfl⟩
    let s := afterAll [.replace [a, wide], .apply (.upsert b), .apply (.remove a)]
    s.toList = [wide, b] ∧ s.listNamespace "" = [b] ∧ b.key ∈ keysIn s.byNamespace "" ∧
      b.key.ns? ≠ none ∧ s.get? b.key = some b := by
  intro a b wide s
  obtain ⟨-, hindex, -, hscoped, hlist, -, -, hget⟩ :=
    namespace_index_exact [.replace [a, wide], .apply (.upsert b), .apply (.remove a)]
  have hall : s.toList = [wide, b] := by decide
  have hmem : b ∈ s.toList := by simp [hall]
  have hkey : b.key ∈ keysIn s.byNamespace "" := (hindex "" b.key).2 ⟨b, hmem, rfl, rfl⟩
  refine ⟨hall, ?_, hkey, hscoped "" b.key hkey, (hget b.key b).2 ⟨hmem, rfl⟩⟩
  rw [(hlist "").1, hall]
  rfl

end Informer.Store
