/-!
# JSON values

The payloads a remote store holds. An object is a list of members; where a name occurs twice the
later member counts, so every list of members has a meaning and no side condition has to travel
with a value. The reader and `putMember` keep names distinct and ascending, which makes equality of
values equality of what they mean.

Integers are kept apart from floating-point numbers: `3` and `3.0` are different values, and only
the first is accepted where an integer is expected.

The laws that the rest of the library uses are `member?_putMember_self` and
`member?_putMember_of_ne`: writing a member changes that member and no other.
-/

namespace Informer

/-- A JSON value. -/
inductive Json where
  | null
  | bool (b : Bool)
  | integer (n : Int)
  | float (x : Float)
  | string (s : String)
  | array (items : List Json)
  | object (members : List (String × Json))

namespace Json

instance : Inhabited Json := ⟨null⟩

/-! ### Decidable equality -/

mutual

/-- Equality of values is decidable. -/
def decEq : (a b : Json) → Decidable (a = b)
  | null, b => match b with
    | null => isTrue rfl
    | bool _ | integer _ | float _ | string _ | array _ | object _ => isFalse nofun
  | bool x, b => match b with
    | bool y => decidable_of_iff (x = y) (by simp)
    | null | integer _ | float _ | string _ | array _ | object _ => isFalse nofun
  | integer x, b => match b with
    | integer y => decidable_of_iff (x = y) (by simp)
    | null | bool _ | float _ | string _ | array _ | object _ => isFalse nofun
  | float x, b => match b with
    | float y => decidable_of_iff (x = y) (by simp)
    | null | bool _ | integer _ | string _ | array _ | object _ => isFalse nofun
  | string x, b => match b with
    | string y => decidable_of_iff (x = y) (by simp)
    | null | bool _ | integer _ | float _ | array _ | object _ => isFalse nofun
  | array x, b => match b with
    | array y => match decEqItems x y with
      | isTrue h => isTrue (by rw [h])
      | isFalse h => isFalse (by simpa using h)
    | null | bool _ | integer _ | float _ | string _ | object _ => isFalse nofun
  | object x, b => match b with
    | object y => match decEqMembers x y with
      | isTrue h => isTrue (by rw [h])
      | isFalse h => isFalse (by simpa using h)
    | null | bool _ | integer _ | float _ | string _ | array _ => isFalse nofun

/-- Equality of lists of items is decidable. -/
def decEqItems : (a b : List Json) → Decidable (a = b)
  | [], [] => isTrue rfl
  | x :: xs, y :: ys => match decEq x y, decEqItems xs ys with
    | isTrue h, isTrue k => isTrue (by rw [h, k])
    | isFalse h, _ => isFalse (by simp [h])
    | _, isFalse k => isFalse (by simp [k])
  | [], _ :: _ => isFalse nofun
  | _ :: _, [] => isFalse nofun

/-- Equality of lists of members is decidable. -/
def decEqMembers : (a b : List (String × Json)) → Decidable (a = b)
  | [], [] => isTrue rfl
  | (m, x) :: xs, (n, y) :: ys =>
    if hn : m = n then
      match decEq x y, decEqMembers xs ys with
      | isTrue h, isTrue k => isTrue (by rw [hn, h, k])
      | isFalse h, _ => isFalse (by simp [h])
      | _, isFalse k => isFalse (by simp [k])
    else isFalse (by simp [hn])
  | [], _ :: _ => isFalse nofun
  | _ :: _, [] => isFalse nofun

end

instance : DecidableEq Json := decEq

/-! ### Members -/

/-- The value of the last member called `name`. -/
def member? (name : String) : List (String × Json) → Option Json
  | [] => none
  | (n, v) :: rest => (member? name rest).or (if n = name then some v else none)

/-- Inserts a member before the first one with a greater name. -/
def insertMember (name : String) (v : Json) : List (String × Json) → List (String × Json)
  | [] => [(name, v)]
  | (n, w) :: rest =>
    if name < n then (name, v) :: (n, w) :: rest else (n, w) :: insertMember name v rest

/-- Makes `v` the value of the only member called `name`, in its place in the order of names. -/
def putMember (name : String) (v : Json) (members : List (String × Json)) :
    List (String × Json) :=
  insertMember name v (members.filter fun m ↦ m.1 != name)

/-- The value of a member of an object; other values have no members. -/
def get? (name : String) : Json → Option Json
  | object members => member? name members
  | _ => none

@[simp] theorem member?_nil (name : String) : member? name [] = none := rfl

@[simp] theorem get?_object (name : String) (members : List (String × Json)) :
    (object members).get? name = member? name members := rfl

theorem member?_insertMember_self {name : String} {v : Json} {members : List (String × Json)}
    (h : ∀ m ∈ members, m.1 ≠ name) : member? name (insertMember name v members) = some v := by
  have absent : ∀ ms : List (String × Json), (∀ m ∈ ms, m.1 ≠ name) → member? name ms = none := by
    intro ms hms
    induction ms with
    | nil => rfl
    | cons m ms ih => simp_all [member?]
  induction members with
  | nil => simp [insertMember, member?]
  | cons m ms ih =>
    obtain ⟨n, w⟩ := m
    by_cases hlt : name < n
    · rw [insertMember, if_pos hlt, member?, absent _ h]
      simp
    · rw [insertMember, if_neg hlt, member?, ih fun m hm ↦ h m (List.mem_cons_of_mem _ hm)]
      rfl

theorem member?_insertMember_of_ne {name other : String} (hne : other ≠ name) (v : Json)
    (members : List (String × Json)) :
    member? other (insertMember name v members) = member? other members := by
  induction members with
  | nil => simp [insertMember, member?, hne.symm]
  | cons m ms ih =>
    obtain ⟨n, w⟩ := m
    by_cases hlt : name < n
    · rw [insertMember, if_pos hlt, member?, if_neg hne.symm, Option.or_none]
    · rw [insertMember, if_neg hlt, member?, ih, member?]

theorem member?_filter_of_ne {name other : String} (hne : other ≠ name)
    (members : List (String × Json)) :
    member? other (members.filter fun m ↦ m.1 != name) = member? other members := by
  induction members with
  | nil => rfl
  | cons m ms ih =>
    obtain ⟨n, w⟩ := m
    by_cases hn : n = name
    · simp [member?, hn, ih, hne.symm]
    · simp [member?, hn, ih]

/-- What was written is what is read. -/
@[simp] theorem member?_putMember_self (name : String) (v : Json)
    (members : List (String × Json)) : member? name (putMember name v members) = some v :=
  member?_insertMember_self fun m hm ↦ by simpa using (List.mem_filter.1 hm).2

/-- Writing one member leaves every other as it was. -/
theorem member?_putMember_of_ne {name other : String} (hne : other ≠ name) (v : Json)
    (members : List (String × Json)) :
    member? other (putMember name v members) = member? other members := by
  rw [putMember, member?_insertMember_of_ne hne, member?_filter_of_ne hne]

end Json

end Informer
