import Informer.Decode

/-!
# Parts of decoded records

A *part* of a record is what one of its fields decodes into, and no other field touches. Two facts
about a part are enough for the rest of the library, and neither depends on the order or the
repetition of members:

* `Part.of_readMembers`: the part holds what the last member with its name decodes into;
* `Part.readMembers_putMember`: writing that member sets the part and changes nothing else.

A map whose entries were written one by one is read back from them (`insertMany_toList`).
-/

namespace Informer.Decode

variable {α β : Type}

/-- The field called `name` decodes into a part of a record that no other field touches. -/
structure Part (fields : List (Field α)) (name : String) (decode : Json → Except DecodeError β)
    (get : α → β) (set : β → α → α) : Prop where
  get_set : ∀ b x, get (set b x) = b
  set_get : ∀ x, set (get x) x = x
  set_set : ∀ b c x, set b (set c x) = set b x
  present : ∃ field ∈ fields, field.name = name
  own : ∀ field ∈ fields, field.name = name → ∀ v x, field.read v x = (decode v).map (set · x)
  other : ∀ field ∈ fields, field.name ≠ name →
    ∀ v b x, field.read v (set b x) = (field.read v x).map (set b)

/-- A part, by one look at each field: either it is the one that sets the part, or it commutes with
setting it. -/
theorem Part.of_fields {fields : List (Field α)} {name : String}
    {decode : Json → Except DecodeError β} {get : α → β} {set : β → α → α}
    (get_set : ∀ b x, get (set b x) = b) (set_get : ∀ x, set (get x) x = x)
    (set_set : ∀ b c x, set b (set c x) = set b x) (present : ∃ field ∈ fields, field.name = name)
    (h : ∀ field ∈ fields,
      (field.name = name ∧ ∀ v x, field.read v x = (decode v).map (set · x)) ∨
      (field.name ≠ name ∧ ∀ v b x, field.read v (set b x) = (field.read v x).map (set b))) :
    Part fields name decode get set where
  get_set := get_set
  set_get := set_get
  set_set := set_set
  present := present
  own field hf hn := by
    obtain ⟨-, hown⟩ | ⟨hne, -⟩ := h field hf
    · exact hown
    · exact absurd hn hne
  other field hf hn := by
    obtain ⟨hname, -⟩ | ⟨-, hother⟩ := h field hf
    · exact absurd hname hn
    · exact hother

theorem readMembers_cons_of_some {fields : List (Field α)} {name : String} {field : Field α}
    (h : fields.find? (·.name = name) = some field) (v : Json) (ms : List (String × Json)) (x : α) :
    readMembers fields ((name, v) :: ms) x = (field.read v x).bind (readMembers fields ms) := by
  rw [readMembers, h]
  rfl

theorem readMembers_cons_of_none {fields : List (Field α)} {name : String}
    (h : fields.find? (·.name = name) = none) (v : Json) (ms : List (String × Json)) (x : α) :
    readMembers fields ((name, v) :: ms) x = readMembers fields ms x := by
  rw [readMembers, h]

/-- A change that commutes with setting a field commutes with reading the field. -/
theorem read_comm {f g : β → α} {change : α → α} (h : ∀ b, f b = change (g b))
    (decoded : Except DecodeError β) :
    (do return f (← decoded)) = (do return g (← decoded) : Except DecodeError α).map change := by
  rcases decoded with e | b
  · rfl
  · exact congrArg Except.ok (h b)

namespace Part

variable {fields : List (Field α)} {name : String} {decode : Json → Except DecodeError β}
  {get : α → β} {set : β → α → α} (h : Part fields name decode get set)

include h

theorem find?_name : ∃ field ∈ fields, fields.find? (·.name = name) = some field ∧
    field.name = name := by
  obtain ⟨field, hmem, hname⟩ := h.present
  rcases hfind : fields.find? (·.name = name) with - | found
  · exact absurd hname (by simpa using List.find?_eq_none.1 hfind field hmem)
  · exact ⟨found, List.mem_of_find?_eq_some hfind, hfind, by simpa using List.find?_some hfind⟩

/-- The field of a part sets it and changes nothing else. -/
theorem readMembers_cons_self (v : Json) (ms : List (String × Json)) (x : α) :
    readMembers fields ((name, v) :: ms) x =
      (decode v).bind fun b ↦ readMembers fields ms (set b x) := by
  obtain ⟨field, hmem, hfind, hname⟩ := h.find?_name
  rw [readMembers_cons_of_some hfind, h.own field hmem hname]
  cases decode v <;> rfl

/-- Another field leaves a part as it is. -/
theorem get_of_read {field : Field α} (hmem : field ∈ fields) (hne : field.name ≠ name) {v : Json}
    {x y : α} (hr : field.read v x = .ok y) : get y = get x := by
  have hset := h.other field hmem hne v (get x) x
  rw [h.set_get, hr] at hset
  have hy : y = set (get x) y := Except.ok.inj hset
  rw [hy, h.get_set]

/-- **A part holds what the last member with its name decodes into**, or what it held before if
there is no such member. -/
theorem of_readMembers {ms : List (String × Json)} {x y : α}
    (hr : readMembers fields ms x = .ok y) :
    match Json.member? name ms with
    | some v => decode v = .ok (get y)
    | none => get y = get x := by
  induction ms generalizing x with
  | nil =>
    obtain rfl : x = y := Except.ok.inj hr
    rfl
  | cons m ms ih =>
    obtain ⟨n, v⟩ := m
    rw [Json.member?]
    by_cases hn : n = name
    · subst hn
      rw [h.readMembers_cons_self] at hr
      rcases hv : decode v with e | b
      · rw [hv] at hr
        cases hr
      · rw [hv] at hr
        have hrest := ih hr
        -- a later member of the name would win
        rcases hm : Json.member? n ms with - | w
        · rw [hm] at hrest
          rw [h.get_set] at hrest
          simp [hrest, hv]
        · rw [hm] at hrest
          exact hrest
    · rw [if_neg hn, Option.or_none]
      rcases hfind : fields.find? (·.name = n) with - | field
      · rw [readMembers_cons_of_none hfind] at hr
        exact ih hr
      · have hname : field.name = n := by simpa using List.find?_some hfind
        rw [readMembers_cons_of_some hfind] at hr
        rcases hx : field.read v x with e | x'
        · rw [hx] at hr
          cases hr
        · rw [hx] at hr
          have hget := h.get_of_read (List.mem_of_find?_eq_some hfind) (hname ▸ hn) hx
          rw [← hget]
          exact ih hr

/-- Reading the other members, from a record in which the part is set already. -/
theorem readMembers_filter {ms : List (String × Json)} {x y : α} (b : β)
    (hr : readMembers fields ms x = .ok y) :
    readMembers fields (ms.filter fun m ↦ m.1 != name) (set b x) = .ok (set b y) := by
  induction ms generalizing x with
  | nil =>
    obtain rfl : x = y := Except.ok.inj hr
    rfl
  | cons m ms ih =>
    obtain ⟨n, v⟩ := m
    by_cases hn : n = name
    · subst hn
      rw [List.filter_cons_of_neg (by simp)]
      rw [h.readMembers_cons_self] at hr
      rcases hv : decode v with e | c
      · rw [hv] at hr
        cases hr
      · rw [hv] at hr
        -- what the dropped member sets is set over
        rw [← h.set_set b c]
        exact ih hr
    · rw [List.filter_cons_of_pos (by simpa using hn)]
      rcases hfind : fields.find? (·.name = n) with - | field
      · rw [readMembers_cons_of_none hfind] at hr ⊢
        exact ih hr
      · have hname : field.name = n := by simpa using List.find?_some hfind
        rw [readMembers_cons_of_some hfind] at hr ⊢
        rw [h.other field (List.mem_of_find?_eq_some hfind) (hname ▸ hn)]
        rcases hx : field.read v x with e | x'
        · rw [hx] at hr
          cases hr
        · rw [hx] at hr
          exact ih hr

/-- It does not matter where among other members the member of a part stands. -/
theorem readMembers_insertMember {ms : List (String × Json)} {v : Json} {b : β} {x y : α}
    (hv : decode v = .ok b) (hms : ∀ m ∈ ms, m.1 ≠ name)
    (hr : readMembers fields ms (set b x) = .ok y) :
    readMembers fields (Json.insertMember name v ms) x = .ok y := by
  induction ms generalizing x with
  | nil =>
    rw [Json.insertMember, h.readMembers_cons_self, hv]
    exact hr
  | cons m ms ih =>
    obtain ⟨n, w⟩ := m
    rw [Json.insertMember]
    split
    · rw [h.readMembers_cons_self, hv]
      exact hr
    · have hn : n ≠ name := hms (n, w) List.mem_cons_self
      have hrest : ∀ m ∈ ms, m.1 ≠ name := fun m hm ↦ hms m (List.mem_cons_of_mem _ hm)
      rcases hfind : fields.find? (·.name = n) with - | field
      · rw [readMembers_cons_of_none hfind] at hr ⊢
        exact ih hrest hr
      · have hname : field.name = n := by simpa using List.find?_some hfind
        rw [readMembers_cons_of_some hfind] at hr ⊢
        rw [h.other field (List.mem_of_find?_eq_some hfind) (hname ▸ hn)] at hr
        rcases hx : field.read w x with e | x'
        · rw [hx] at hr
          cases hr
        · rw [hx] at hr
          exact ih hrest hr

/-- **Writing a member sets its part and changes nothing else.** -/
theorem readMembers_putMember {ms : List (String × Json)} {v : Json} {b : β} {x y : α}
    (hv : decode v = .ok b) (hr : readMembers fields ms x = .ok y) :
    readMembers fields (Json.putMember name v ms) x = .ok (set b y) :=
  h.readMembers_insertMember hv (fun _ hm ↦ by simpa using (List.mem_filter.1 hm).2)
    (h.readMembers_filter b hr)

end Part

/-! ### Records from objects -/

/-- A record that decodes from an object was read from its members. -/
theorem readMembers_of_record {record : String} {fields : List (Field α)} {blank x : α}
    {members : List (String × Json)}
    (h : Decode.record record fields blank (.object members) = .ok x) :
    readMembers fields members blank = .ok x := by
  rcases hr : readMembers fields members blank with e | y
  · rw [Decode.record, hr] at h
    cases h
  · rcases hf : fields.find? (fun field ↦ field.required &&
        (Json.member? field.name members).isNone) with - | field
    · rw [Decode.record, hr, hf] at h
      exact h
    · rw [Decode.record, hr, hf] at h
      cases h

/-- A record without required fields decodes from an object when its members can be read. -/
theorem record_object {record : String} {fields : List (Field α)} (blank : α)
    (h : ∀ field ∈ fields, field.required = false) (members : List (String × Json)) :
    Decode.record record fields blank (.object members) = readMembers fields members blank := by
  have hnone : fields.find? (fun field ↦ field.required &&
      (Json.member? field.name members).isNone) = none :=
    List.find?_eq_none.2 fun field hf ↦ by simp [h field hf]
  rw [Decode.record, hnone]
  cases readMembers fields members blank <;> rfl

/-! ### Maps from their entries -/

/-- A map is made of its entries. -/
theorem insertMany_toList {κ : Type} [Ord κ] [Std.TransOrd κ] [BEq κ] [Std.LawfulBEqOrd κ]
    [Std.LawfulEqOrd κ] (map : Std.ExtTreeMap κ β) :
    (∅ : Std.ExtTreeMap κ β).insertMany map.toList = map := by
  ext1 key
  rcases hk : map[key]? with - | v
  · rw [Std.ExtTreeMap.getElem?_insertMany_list_of_contains_eq_false]
    · simp
    · rw [Std.ExtTreeMap.map_fst_toList_eq_keys]
      simpa using hk
  · exact Std.ExtTreeMap.getElem?_insertMany_list_of_mem (by simp) map.distinct_keys_toList
      (Std.ExtTreeMap.mem_toList_iff_getElem?_eq_some.2 hk)

end Informer.Decode
