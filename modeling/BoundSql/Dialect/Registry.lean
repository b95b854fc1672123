import BoundSql.Dialect.Standard

/-!
# Registries of dialects

The dialects known by name.  Registering one replaces the one that had its name.
-/

namespace BoundSql

/-- Dialects of different names. -/
structure Registry where
  dialects : List Dialect

namespace Registry

/-- No dialect is known. -/
def empty : Registry := ⟨[]⟩

/-- Makes a dialect known. -/
def register (r : Registry) (d : Dialect) : Registry :=
  ⟨d :: r.dialects.filter (·.name != d.name)⟩

/-- The dialects at hand. -/
def shipped : Registry := Dialect.shipped.foldl register empty

/-- The dialect of a name. -/
def get (r : Registry) (name : String) : Except Fault Dialect :=
  match r.dialects.find? (·.name == name) with
  | some d => .ok d
  | none => .error (.unregisteredDialect name)

/-- The names known, in order. -/
def names (r : Registry) : List String :=
  (r.dialects.map (·.name)).mergeSort fun a b => decide (a ≤ b)

end Registry

end BoundSql
