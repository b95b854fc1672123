import BoundSql.Value.Basic

/-!
# Results of statements

The rows that a database returns for a statement, under the labels of their columns, or the number
of rows that the statement changed.
-/

namespace BoundSql

/-- A row with the labels of its columns. -/
structure LabeledRow where
  labels : List String
  values : List Value

/-- The value at the first place that has the label.  Nothing where no place has it, and
`some none` where the row ends before the place. -/
def LabeledRow.column? (r : LabeledRow) (label : String) : Option (Option Value) :=
  (r.labels.findIdx? (· == label)).map (r.values[·]?)

/-- What a statement changed. -/
structure Affected where
  rows : Nat
  lastId : Option Int
  deriving DecidableEq, Repr

def Affected.nothing : Affected := ⟨0, none⟩

/-- Everything a database returns for a statement. -/
structure RowSet where
  labels : List String
  rows : List (List Value)
  affected : Affected

namespace RowSet

/-- No rows and nothing changed. -/
def empty : RowSet := ⟨[], [], .nothing⟩

/-- The answer to a statement that changed some rows. -/
def changed (n : Nat) : RowSet := ⟨[], [], ⟨n, none⟩⟩

/-- A single value under the label `value`. -/
def single (v : Value) : RowSet := ⟨["value"], [[v]], .nothing⟩

def isEmpty (r : RowSet) : Bool := r.rows.isEmpty

/-- The first column of the first row. -/
def scalar? (r : RowSet) : Option Value := r.rows.head?.bind (·.head?)

/-- The first column of the first row, NULL if there is none. -/
def scalar (r : RowSet) : Value := r.scalar?.getD .unknown

/-- The rows, each with the labels. -/
def labeled (r : RowSet) : List LabeledRow := r.rows.map fun values => ⟨r.labels, values⟩

end RowSet

end BoundSql
