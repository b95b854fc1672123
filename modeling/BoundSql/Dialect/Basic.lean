import BoundSql.Dialect.Page
import BoundSql.Fragment.Wrapped

/-!
# Dialects

The syntax of one family of databases, as data: how identifiers are quoted and parameters marked,
how a page is cut, and how a text is cast to a timestamp.  Everything a statement needs is derived
from that.
-/

namespace BoundSql

open Numeric Calendar

/-- The syntax of one family of databases. -/
structure Dialect where
  name : String
  openQuote : Char
  closeQuote : Char
  /-- The character that opens a parameter marker. -/
  sign : Char
  /-- Whether markers name the type of the value they stand for. -/
  typedMarkers : Bool
  paging : Paging
  /-- Whether the greatest key is looked for among the keys as integers. -/
  integerKeys : Bool
  /-- The cast that makes a timestamp of the text in its slot. -/
  timestampCast : String
  deriving DecidableEq

/-- A column of a table, and the field of a record that it holds. -/
structure ColumnRef where
  name : String
  field : String
  table : String
  deriving DecidableEq, Repr

/-- What the columns of a clause are read against: whether they are qualified, and the alias of
those that name none. -/
structure Scope where
  qualify : Bool
  tableAlias : String
  deriving DecidableEq, Repr

/-- The scope of a statement that says nothing else. -/
def Scope.standard : Scope := ⟨true, "t"⟩

namespace Dialect

/-- Doubles the closing quote. -/
def doubled (close c : Char) : List Char := if c = close then [close, c] else [c]

/-- An identifier between quotes. -/
def quote (d : Dialect) (s : String) : String :=
  String.ofList (d.openQuote :: s.toList.flatMap (doubled d.closeQuote) ++ [d.closeQuote])

/-- A table, with an alias unless that is empty. -/
def tableRef (d : Dialect) (table : String) (tableAlias : Option String) : String :=
  d.quote table ++
    match tableAlias with
    | some a => if a = "" then "" else " " ++ a
    | none => ""

/-- A column, qualified where the scope asks for it. -/
def columnRef (d : Dialect) (scope : Scope) (own : Option String) (column : ColumnRef) : String :=
  let qualifier := own.getD scope.tableAlias
  (if scope.qualify && qualifier != "" then qualifier ++ "." else "") ++ d.quote column.name

/-- The marker of a parameter that stands for a value. -/
def marker (d : Dialect) (name : String) (value : Value) : String :=
  String.ofList [d.sign] ++ name ++ if d.typedMarkers then "#" ++ value.type.name else ""

/-- The text of a fragment. -/
def render (d : Dialect) (f : Fragment) : String := f.render d.marker

/-- Page `page` of the statement, where pages of `size` rows are counted from one. -/
def pageSql (d : Dialect) (sql order : String) (size page : Nat) : Except Fault String :=
  (pageBounds size page).map fun (first, last) => d.paging.cut (withOrder sql order) first last

/-- The number of rows of a statement. -/
def countSql (_ : Dialect) (sql : String) : String := "SELECT COUNT(*) FROM (" ++ sql ++ ") T"

/-- The greatest key of a table. -/
def maxIdSql (d : Dialect) (table key : String) : String :=
  let key := if d.integerKeys then "CAST(" ++ d.quote key ++ " AS INTEGER)" else d.quote key
  "SELECT MAX(" ++ key ++ ") FROM " ++ d.quote table

/-! ### Values with text around them -/

/-- The pattern of texts that contain `s`. -/
def forContains (_ : Dialect) (s : String) : WrappedValue := .bound (.varchar ("%" ++ s ++ "%"))

/-- The pattern of texts that start with `s`. -/
def forStartsWith (_ : Dialect) (s : String) : WrappedValue := .bound (.varchar (s ++ "%"))

/-- The pattern of texts that end with `s`. -/
def forEndsWith (_ : Dialect) (s : String) : WrappedValue := .bound (.varchar ("%" ++ s))

/-- A timestamp, bound as text to the second. -/
def forTimestamp (d : Dialect) (t : Timestamp) : WrappedValue :=
  .wrapped d.timestampCast (.varchar t.text)

/-- Markers for the items of a list, numbered from `i` on. -/
def listMarkers (i : Nat) : Nat → List Token
  | 0 => []
  | n + 1 =>
    (if i = 0 then [] else [Token.text ","]) ++ .param ("inParam" ++ natText i)
      :: listMarkers (i + 1) n

/-- A list of values, each with a marker of its own. -/
def forList (_ : Dialect) (values : List Value) : WrappedValue where
  template := .text "(" :: listMarkers 0 values.length ++ [.text ")"]
  value := .list values ((values.head?.map (·.type)).getD .unknown)

end Dialect

end BoundSql
