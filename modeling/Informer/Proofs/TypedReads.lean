import Informer.Cache
import Informer.Proofs.Identity
import Informer.Proofs.NamespaceIndex

/-!
# Typed reads agree

A cache answers typed reads in two ways: it looks up one key and decodes what it finds, or it lists
all objects by ascending key and decodes one after another until one fails. Both read the same
store (`Cache.storeOf`).

What the second way returns is said of `List.mapM` alone: all results when all items decode
(`mapM_eq_ok_iff`), or else the error of the first item that does not (`mapM_eq_error_iff`). The
rest is the order of the store, which makes the first item that fails the one with the least key,
and the identity of a resource, which carries the key that it was found under.
`Cache.typed_reads_agree` puts them together.
-/

namespace Informer

section MapM

variable {ε α β : Type} {f : α → Except ε β}

/-- A list is mapped to some results when each item is mapped to its result. -/
theorem mapM_eq_ok_iff {as : List α} {bs : List β} :
    as.mapM f = .ok bs ↔ as.map f = bs.map .ok := by
  induction as generalizing bs with
  | nil => cases bs <;> simp [pure, Except.pure]
  | cons a as ih =>
    rw [List.mapM_cons, List.map_cons]
    rcases f a with e | b
    · exact iff_of_false nofun fun h ↦ by cases bs <;> cases h
    · have hrest : (as.mapM f).bind (fun cs ↦ .ok (b :: cs)) = .ok bs ↔
          ∃ cs, as.mapM f = .ok cs ∧ b :: cs = bs := by
        rcases as.mapM f with e | cs <;> simp [Except.bind]
      refine hrest.trans ⟨?_, fun h ↦ ?_⟩
      · rintro ⟨cs, hcs, rfl⟩
        rw [ih.1 hcs, List.map_cons]
      · cases bs with
        | nil => cases h
        | cons c cs =>
          obtain ⟨hc, hcs⟩ := List.cons.inj h
          cases hc
          exact ⟨cs, ih.2 hcs, rfl⟩

/-- The first item that fails is the error. -/
theorem mapM_eq_error_iff {as : List α} {e : ε} :
    as.mapM f = .error e ↔ ∃ before a after, as = before ++ a :: after ∧
      (∀ b ∈ before, ∃ y, f b = .ok y) ∧ f a = .error e := by
  induction as with
  | nil => simp [pure, Except.pure]
  | cons a as ih =>
    rw [List.mapM_cons]
    rcases ha : f a with e' | y
    · constructor
      · rintro ⟨⟩
        exact ⟨[], a, as, rfl, List.forall_mem_nil _, ha⟩
      · rintro ⟨before, b, after, h, hbefore, hb⟩
        cases before with
        | nil =>
          cases h
          exact congrArg Except.error (Except.error.inj (ha.symm.trans hb))
        | cons c before =>
          cases h
          obtain ⟨y, hy⟩ := hbefore a List.mem_cons_self
          cases ha.symm.trans hy
    · have hrest : (as.mapM f).bind (fun bs ↦ .ok (y :: bs)) = .error e ↔
          as.mapM f = .error e := by
        cases as.mapM f <;> simp [Except.bind]
      refine hrest.trans (ih.trans ?_)
      constructor
      · rintro ⟨before, b, after, rfl, hbefore, hb⟩
        exact ⟨a :: before, b, after, rfl, List.forall_mem_cons.2 ⟨⟨y, ha⟩, hbefore⟩, hb⟩
      · rintro ⟨before, b, after, h, hbefore, hb⟩
        cases before with
        | nil =>
          cases h
          cases ha.symm.trans hb
        | cons c before =>
          cases h
          exact ⟨before, b, after, rfl, (List.forall_mem_cons.1 hbefore).2, hb⟩

end MapM

section Decoded

variable {α : Type} [Resource α]

/-- All objects decode when there is a list of what they decode as. -/
theorem exists_map_decode_iff {os : List Object} :
    (∃ xs : List α, os.map (·.decode α) = xs.map .ok) ↔ ∀ o ∈ os, ∃ x, o.decode α = .ok x := by
  induction os with
  | nil => exact iff_of_true ⟨[], rfl⟩ (List.forall_mem_nil _)
  | cons o os ih =>
    rw [List.forall_mem_cons, ← ih]
    constructor
    · rintro ⟨xs, hxs⟩
      cases xs with
      | nil => cases hxs
      | cons x xs => exact ⟨⟨x, (List.cons.inj hxs).1⟩, xs, (List.cons.inj hxs).2⟩
    · rintro ⟨⟨x, hx⟩, xs, hxs⟩
      exact ⟨x :: xs, by rw [List.map_cons, List.map_cons, hx, hxs]⟩

/-- Every listed resource is what some object decodes as. -/
theorem mem_of_map_decode {os : List Object} {xs : List α} (h : os.map (·.decode α) = xs.map .ok)
    {x : α} (hx : x ∈ xs) : ∃ o ∈ os, o.decode α = .ok x := by
  have hmem : (.ok x : Except ObjectError α) ∈ xs.map .ok := List.mem_map_of_mem hx
  rw [← h] at hmem
  exact List.mem_map.1 hmem

variable [LawfulResource α]

/-- Decoded objects keep their keys. -/
theorem map_key_of_map_decode {os : List Object} {xs : List α}
    (h : os.map (·.decode α) = xs.map .ok) :
    xs.map (fun x ↦ (Resource.metadata x).key) = os.map Object.key := by
  induction os generalizing xs with
  | nil => rw [List.map_eq_nil_iff.1 h.symm]; rfl
  | cons o os ih =>
    cases xs with
    | nil => cases h
    | cons x xs =>
      obtain ⟨hx, hxs⟩ := List.cons.inj h
      rw [List.map_cons, List.map_cons, ih hxs, Object.metadata_of_decode hx, Object.key]

end Decoded

namespace Cache

variable (c : Cache)

/-- What a cache holds of a kind: nothing as long as nobody asked for the kind. -/
def storeOf (kind : Kind) : Store := (c.entries[kind]?.map (·.store)).getD {}

variable (α : Type) [Resource α]

/-- A point read decodes what is held under its key. -/
theorem get_eq (key : Key) :
    c.get α key = match (c.storeOf (Resource.kind α)).get? key with
      | none => .ok none
      | some o => (o.decode α).map some := by
  rw [get, storeOf]
  rcases c.entries[Resource.kind α]? with - | e
  · simp [Store.get?]
  · rfl

/-- A listing decodes what is held, one object after another. -/
theorem list_eq : c.list α = (c.storeOf (Resource.kind α)).toList.mapM (·.decode α) := by
  rw [list, storeOf]
  rcases c.entries[Resource.kind α]? with - | e
  · rfl
  · rfl

variable {α}

/-- A point read of a key that is held returns what the object decodes as, or its error. -/
theorem get_of_held {s : Store} (h : c.storeOf (Resource.kind α) = s) {key : Key} {o : Object}
    (ho : s.get? key = some o) : c.get α key = (o.decode α).map some := by
  rw [get_eq, h, ho]

/-- A point read of a key that is not held finds nothing. -/
theorem get_of_not_mem {s : Store} (h : c.storeOf (Resource.kind α) = s) {key : Key}
    (hkey : key ∉ s.objects.keys) : c.get α key = .ok none := by
  have hnone : s.get? key = none := by simpa [Store.get?] using hkey
  rw [get_eq, h, hnone]

/-- **The typed reads of a cache agree**, whatever was written into the store of the kind. A listing
succeeds when every held object decodes. It then has what the objects decode as, one for each held
key and in strictly ascending order of the keys, each of which a point read returns as well; a point
read of another key finds nothing. Otherwise a listing returns the error of the object with the
least key among those that do not decode, and so does a point read of this key, while a point read
of an object that decodes returns it all the same. -/
theorem typed_reads_agree (k : Known) (c : Cache) (writes : List Store.Write)
    (h : c.storeOf k.kind = Store.afterAll writes) :
    let s := Store.afterAll writes
    ((∃ xs, c.list k.Carrier = .ok xs) ↔ ∀ o ∈ s.toList, ∃ x, o.decode k.Carrier = .ok x) ∧
    (∀ xs, c.list k.Carrier = .ok xs →
      s.toList.map (·.decode k.Carrier) = xs.map .ok ∧
      xs.map (fun x ↦ (Resource.metadata x).key) = s.objects.keys ∧
      (xs.Pairwise fun x y ↦
        compare (Resource.metadata x).key (Resource.metadata y).key = .lt) ∧
      (∀ x ∈ xs, c.get k.Carrier (Resource.metadata x).key = .ok (some x)) ∧
      ∀ key, key ∉ xs.map (fun x ↦ (Resource.metadata x).key) →
        c.get k.Carrier key = .ok none) ∧
    (∀ e, c.list k.Carrier = .error e →
      ∃ o ∈ s.toList, o.decode k.Carrier = .error e ∧ c.get k.Carrier o.key = .error e ∧
        ∀ other ∈ s.toList, compare other.key o.key = .lt →
          ∃ x, other.decode k.Carrier = .ok x) ∧
    (∀ o ∈ s.toList, ∀ x, o.decode k.Carrier = .ok x →
      c.get k.Carrier o.key = .ok (some x)) ∧
    ∀ key, key ∉ s.objects.keys → c.get k.Carrier key = .ok none := by
  intro s
  have hs : s.Keyed := Store.keyed_afterAll writes
  have hstore : c.storeOf (Resource.kind k.Carrier) = s := h
  have hlist : c.list k.Carrier = s.toList.mapM (·.decode k.Carrier) := by rw [list_eq, hstore]
  have hget : ∀ o ∈ s.toList, c.get k.Carrier o.key = (o.decode k.Carrier).map some :=
    fun o ho ↦ get_of_held c hstore ((Store.get?_eq_some_iff hs).2 ⟨ho, rfl⟩)
  have hnone : ∀ key, key ∉ s.objects.keys → c.get k.Carrier key = .ok none :=
    fun key hkey ↦ get_of_not_mem c hstore hkey
  refine ⟨?_, fun xs hxs ↦ ?_, fun e he ↦ ?_, fun o ho x hx ↦ by rw [hget o ho, hx]; rfl, hnone⟩
  · simp only [hlist, mapM_eq_ok_iff, exists_map_decode_iff]
  · have hmap : s.toList.map (·.decode k.Carrier) = xs.map .ok :=
      mapM_eq_ok_iff.1 (hlist.symm.trans hxs)
    have hkeys := map_key_of_map_decode hmap
    refine ⟨hmap, hkeys.trans (Store.map_key_toList hs), ?_, fun x hx ↦ ?_, fun key hkey ↦ ?_⟩
    · have hascending := Store.ascending_toList hs
      rw [← List.pairwise_map (f := Object.key) (R := fun a b ↦ compare a b = .lt), ← hkeys,
        List.pairwise_map] at hascending
      exact hascending
    · obtain ⟨o, ho, hox⟩ := mem_of_map_decode hmap hx
      have hkey : (Resource.metadata x).key = o.key :=
        congrArg Metadata.key (Object.metadata_of_decode hox)
      rw [hkey, hget o ho, hox]
      rfl
    · rw [hkeys, Store.map_key_toList hs] at hkey
      exact hnone key hkey
  · obtain ⟨before, o, after, hsplit, hbefore, ho⟩ := mapM_eq_error_iff.1 (hlist.symm.trans he)
    have hmem : o ∈ s.toList := hsplit ▸ List.mem_append_right before List.mem_cons_self
    refine ⟨o, hmem, ho, by rw [hget o hmem, ho]; rfl, fun other hother hlt ↦ hbefore other ?_⟩
    -- what is listed after an object has a greater key
    have hascending := Store.ascending_toList hs
    rw [hsplit, List.pairwise_append, List.pairwise_cons] at hascending
    rw [hsplit, List.mem_append, List.mem_cons] at hother
    rcases hother with hin | rfl | hin
    · exact hin
    · exact absurd hlt (by simp)
    · have hgt := Std.OrientedCmp.gt_of_lt (hascending.2.1.1 other hin)
      cases hgt.symm.trans hlt

/-- Of three widgets that were written one does not decode. A listing reports it, as does a point
read of it, and the widgets on both sides of it can still be read. -/
theorem typed_reads_agree_of_malformed :
    let first : Object := ⟨.object [("metadata", .object [("name", .string "a")])], { name := "a" },
      rfl⟩
    let bad : Object := ⟨.object [("metadata", .object [("name", .string "b")]),
      ("spec", .string "large")], { name := "b" }, rfl⟩
    let last : Object := ⟨.object [("metadata", .object [("name", .string "c")]),
      ("spec", .object [("size", .integer 2)])], { name := "c" }, rfl⟩
    let writes : List Store.Write := [.replace [last, first], .apply (.upsert bad)]
    let c : Cache := { Cache.new {} {} with
      entries := (∅ : Std.ExtTreeMap Kind Entry).insert Known.widget.kind
        { Entry.empty Known.widget.kind none with store := Store.afterAll writes } }
    let cause : ObjectError := .malformed Known.widget.kind
      (.invalidType (.string "large") "struct WidgetSpec")
    c.storeOf Known.widget.kind = Store.afterAll writes ∧
      c.list Known.widget.Carrier = .error cause ∧
      c.get Known.widget.Carrier bad.key = .error cause ∧
      c.get Known.widget.Carrier first.key = .ok (some ⟨{ name := "a" }, {}⟩) ∧
      c.get Known.widget.Carrier last.key = .ok (some ⟨{ name := "c" }, ⟨2⟩⟩) := by
  intro first bad last writes c cause
  have hstore : c.storeOf Known.widget.kind = Store.afterAll writes := by simp [storeOf, c]
  have hheld : (Store.afterAll writes).toList = [first, bad, last] := by decide
  have hlist : c.list Known.widget.Carrier = .error cause := by
    rw [list_eq, show c.storeOf (Resource.kind Known.widget.Carrier) = _ from hstore, hheld]
    rfl
  obtain ⟨-, -, herror, hdecoded, -⟩ := typed_reads_agree .widget c writes hstore
  refine ⟨hstore, hlist, ?_, hdecoded first (by simp [hheld]) _ rfl,
    hdecoded last (by simp [hheld]) _ rfl⟩
  obtain ⟨o, ho, hfails, hget, -⟩ := herror cause hlist
  rw [hheld] at ho
  rcases List.mem_cons.1 ho with rfl | ho
  · cases hfails
  · rcases List.mem_cons.1 ho with rfl | ho
    · exact hget
    · rw [List.mem_singleton] at ho
      subst ho
      cases hfails

end Cache

end Informer
