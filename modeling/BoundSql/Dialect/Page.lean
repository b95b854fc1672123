import BoundSql.Fault
import BoundSql.Text.Blank

/-!
# Pages

The window of rows that a page of a result takes, and the four ways in which databases cut it out
of a statement.  Bounds are numbers of 64 bits; a page whose end is beyond them does not exist.
-/

namespace BoundSql

open Numeric

/-- Row numbers are smaller than this. -/
def rowLimit : Nat := pow2 64

/-- The first row of a page and the one after its last row. -/
def pageBounds (size page : Nat) : Except Fault (Nat × Nat) :=
  let first := size * (page - 1)
  if first + size < rowLimit then .ok (first, first + size)
  else .error (.page (.outOfRange page size))

/-- Pages and their sizes start at one. -/
def checkPage (page size : Nat) : Except Fault Unit :=
  if page = 0 ∨ size = 0 then .error (.page (.startsAtOne page size))
  else (pageBounds size page).map fun _ => ()

/-- The number of pages of `total` rows: one at least, and the last one may be short. -/
def pageCount (total size : Nat) : Nat := (total - 1) / size + 1

/-- The statement with its ordering after it, if it has one. -/
def withOrder (sql order : String) : String :=
  let order := Text.trim order
  Text.trim sql ++ if order = "" then "" else " " ++ order

/-- How a database cuts a page out of a statement. -/
inductive Paging where
  /-- `LIMIT size OFFSET first` -/
  | limitOffset
  /-- `LIMIT first, size` -/
  | limitPair
  /-- `LIMIT size OFFSET first` of the statement in parentheses -/
  | derivedTable
  /-- two filters on the number of the row -/
  | rowNumber
  deriving DecidableEq, Repr

/-- The rows from `first` to before `last` of an ordered statement. -/
def Paging.cut (p : Paging) (sql : String) (first last : Nat) : String :=
  let size := natText (last - first)
  let first := natText first
  match p with
  | limitOffset => sql ++ " LIMIT " ++ size ++ " OFFSET " ++ first
  | limitPair => sql ++ " LIMIT " ++ first ++ ", " ++ size
  | derivedTable =>
    "SELECT * FROM (" ++ sql ++ ") row_limit LIMIT " ++ size ++ " OFFSET " ++ first
  | rowNumber =>
    "SELECT * FROM (SELECT row_limit.*, ROWNUM rownum_ FROM (" ++ sql
      ++ ") row_limit WHERE ROWNUM <= " ++ natText last ++ ") WHERE rownum_ > " ++ first

end BoundSql
