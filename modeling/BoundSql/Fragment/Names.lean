import BoundSql.Fault

/-!
# Parameter names

The names taken in one statement.  Claiming a name that is free takes it; claiming one that is
taken takes the name with the least number behind it that makes it free.  The numbers already
tried for a name are remembered: what was once taken stays taken, so the search goes on where it
ended last (`Names.claim`) and finds the same name as a search from `1` (`Names.leastFree`).
-/

namespace BoundSql

open Numeric

/-- The names taken in a statement, and the number to try next for each name that was claimed
again. -/
structure Names where
  taken : List String
  next : List (String × Nat)
  deriving DecidableEq

namespace Names

/-- No name is taken. -/
def none : Names := ⟨[], []⟩

/-- The name with a number behind it. -/
def numbered (base : String) (k : Nat) : String := base ++ natText k

/-- The least number from `k` on that makes the name free, looking at `fuel` numbers. -/
def freeFrom (taken : List String) (base : String) (k : Nat) : Nat → Nat
  | 0 => k
  | fuel + 1 =>
    if taken.contains (numbered base k) then freeFrom taken base (k + 1) fuel else k

/-- The least number from `1` on that makes the name free.  Of one number more than there are
names one is free. -/
def leastFree (taken : List String) (base : String) : Nat :=
  freeFrom taken base 1 (taken.length + 1)

/-- The number to try next for a name. -/
def nextFor (names : Names) (base : String) : Nat := (names.next.lookup base).getD 1

/-- Takes a name, or the name with the next free number. -/
def claim (names : Names) (base : String) : String × Names :=
  if names.taken.contains base then
    let k := freeFrom names.taken base (names.nextFor base) (names.taken.length + 1)
    let name := numbered base k
    (name, ⟨name :: names.taken, (base, k + 1) :: names.next.filter (·.1 != base)⟩)
  else (base, { names with taken := base :: names.taken })

/-- Whether a name is taken. -/
def contains (names : Names) (name : String) : Bool := names.taken.contains name

/-- Claims names one after the other. -/
def claimAll (names : Names) : List String → List String × Names
  | [] => ([], names)
  | base :: bases =>
    let (name, names) := names.claim base
    let (rest, names) := names.claimAll bases
    (name :: rest, names)

end Names

/-- A computation that claims names as it goes.  A fault does not give them back. -/
abbrev Claiming := ExceptT Fault (StateM Names)

/-- Claims a name. -/
def claimName (base : String) : StateM Names String := fun names => names.claim base

end BoundSql
