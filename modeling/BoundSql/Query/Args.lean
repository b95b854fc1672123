import BoundSql.Fragment.Wrapped

/-!
# Arguments of a template

A value, or a value with text around it, given by position or under a name.  A bag holds one
argument for each name and keeps the order in which the names came.
-/

namespace BoundSql

/-- An argument of a template. -/
inductive Arg where
  | value (v : Value)
  | wrapped (w : WrappedValue)

/-- Arguments under different names. -/
structure Bag where
  entries : List (String × Arg)

namespace Bag

def empty : Bag := ⟨[]⟩

/-- Entries with the argument of a name replaced, or put at the end. -/
def set (name : String) (arg : Arg) : List (String × Arg) → List (String × Arg)
  | [] => [(name, arg)]
  | (other, old) :: rest =>
    if other = name then (name, arg) :: rest else (other, old) :: set name arg rest

/-- The bag with an argument under a name, in place of the one it may hold. -/
def insert (b : Bag) (name : String) (arg : Arg) : Bag := ⟨set name arg b.entries⟩

/-- The argument of a name. -/
def get? (b : Bag) (name : String) : Option Arg := b.entries.lookup name

def size (b : Bag) : Nat := b.entries.length

def isEmpty (b : Bag) : Bool := b.entries.isEmpty

/-- A bag filled from the left. -/
def ofList (entries : List (String × Arg)) : Bag :=
  entries.foldl (fun b (name, arg) => b.insert name arg) empty

end Bag

/-- The arguments of one template. -/
inductive Args where
  | positional (values : List Arg)
  | named (bag : Bag)

def Args.isEmpty : Args → Bool
  | positional values => values.isEmpty
  | named bag => bag.isEmpty

end BoundSql
