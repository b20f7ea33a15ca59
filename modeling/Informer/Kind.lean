import Informer.Decode

/-!
# Kinds

A kind names the schema of a class of remote objects by group, version and name. Kinds are ordered
by group, then version, then name; a cache keeps one watch for each.
-/

namespace Informer

/-- The group, version and name of a class of remote objects; the core group is empty. -/
structure Kind where
  group : String
  version : String
  name : String
deriving DecidableEq, Inhabited

namespace Kind

/-- The order of kinds: by group, then version, then name. -/
def order : Kind → Kind → Ordering :=
  compareLex (compareOn group) (compareLex (compareOn version) (compareOn name))

instance : Ord Kind := ⟨order⟩

instance : Std.TransOrd Kind :=
  inferInstanceAs (Std.TransCmp
    (compareLex (compareOn group) (compareLex (compareOn version) (compareOn name))))

instance : Std.LawfulEqOrd Kind where
  eq_of_compare {a b} h := by
    change compareLex _ _ a b = .eq at h
    simp only [compareLex, compareOn, Ordering.then_eq_eq, Std.LawfulEqCmp.compare_eq_iff_eq] at h
    cases a; cases b; simp_all

/-- The group and version, or just the version in the core group. -/
def apiVersion (k : Kind) : String :=
  if k.group = "" then k.version else k.group ++ "/" ++ k.version

/-- How messages show a kind. -/
def display (k : Kind) : String := k.apiVersion ++ ", Kind=" ++ k.name

/-- How a debug text shows a kind, field by field. -/
def debug (k : Kind) : String :=
  "GroupVersionKind \x7b group: " ++ Text.quote k.group ++ ", version: " ++ Text.quote k.version
    ++ ", kind: " ++ Text.quote k.name ++ " \x7d"

/-- The fields of a written kind. -/
def fields : List (Decode.Field Kind) := [
  ⟨"group", true, fun v k ↦ do return { k with group := ← Decode.text v }⟩,
  ⟨"version", true, fun v k ↦ do return { k with version := ← Decode.text v }⟩,
  ⟨"kind", true, fun v k ↦ do return { k with name := ← Decode.text v }⟩]

/-- Decodes a kind. -/
def decode : Json → Except DecodeError Kind :=
  Decode.record "GroupVersionKind" fields ⟨"", "", ""⟩

/-- The written form of a kind. -/
def encode (k : Kind) : Json :=
  .object [("group", .string k.group), ("kind", .string k.name), ("version", .string k.version)]

end Kind

end Informer
