import Std.Data.ExtTreeMap

/-!
# Object keys

The identity of an object within its kind: a name, and a namespace unless the object is
cluster-scoped. Cluster-scoped keys come first, then the namespaces in ascending order, and within
a namespace the names. An empty namespace is a namespace.
-/

namespace Informer

/-- The namespace and name of an object; a cluster-scoped object has no namespace. -/
structure Key where
  ns? : Option String
  name : String
deriving DecidableEq, Inhabited

namespace Key

/-- The order of keys: cluster-scoped ones first, then by namespace, then by name. -/
def order : Key → Key → Ordering := compareLex (compareOn ns?) (compareOn name)

instance : Ord Key := ⟨order⟩

instance : Std.TransOrd Key :=
  inferInstanceAs (Std.TransCmp (compareLex (compareOn ns?) (compareOn name)))

instance : Std.LawfulEqOrd Key where
  eq_of_compare {a b} h := by
    change compareLex _ _ a b = .eq at h
    simp only [compareLex, compareOn, Ordering.then_eq_eq, Std.LawfulEqCmp.compare_eq_iff_eq] at h
    cases a; cases b; simp_all

/-- How messages show a key. -/
def display (k : Key) : String :=
  match k.ns? with
  | some ns => ns ++ "/" ++ k.name
  | none => k.name

end Key

end Informer
