import BoundSql.Dialect.Basic
import BoundSql.Query.Args
import BoundSql.Query.Rows
import BoundSql.Value.Decode

/-!
# Schemas and entities

A schema maps the fields of a record to the columns of a table.  Its entities are records with one
value for each column, of the type of the column, and one for each field that is not stored.

An entity reads from a row by the labels of the row: they are looked at from left to right, each
value goes to the first column of that name, the first value that does not decode is the fault,
and otherwise the first column that no label named.  Fields that are not stored start anew.
-/

namespace BoundSql

/-- A field of a record and the column that stores it. -/
structure Column where
  name : String
  field : String
  native : NativeType
  primaryKey : Bool
  /-- Whether the database generates the column, where the column says so itself. -/
  generated : Option Bool

namespace Column

/-- A column that stores the field of its name. -/
def plain (name : String) (native : NativeType) : Column := ⟨name, name, native, false, none⟩

/-- Whether the column may hold NULL: the type is an option, and no key. -/
def nullable (c : Column) : Bool := c.native.isOption && !c.primaryKey

end Column

/-- A table and the columns that store the fields of a record. -/
structure Schema where
  table : String
  /-- Whether the database generates the key, where the table says so. -/
  generated : Option Bool
  columns : List Column
  /-- Types of the fields that are not stored. -/
  transient : List NativeType

namespace Schema

/-- The types of the stored fields. -/
def natives (s : Schema) : List NativeType := s.columns.map (·.native)

/-- A column as expressions refer to it. -/
def ref (s : Schema) (c : Column) : ColumnRef := ⟨c.name, c.field, s.table⟩

/-- The first column that is the primary key. -/
def key? (s : Schema) : Option Column := s.columns.find? (·.primaryKey)

/-- The primary key of a table that must have one. -/
def requireKey (s : Schema) : Except Fault Column :=
  match s.key? with
  | some c => .ok c
  | none => .error (.keyless s.table)

/-- Whether the database generates a column.  Only keys are; the column decides before the table,
and the table before the client. -/
def isGenerated (s : Schema) (default : Bool) (c : Column) : Bool :=
  c.primaryKey && ((c.generated.orElse fun _ => s.generated).getD default)

end Schema

/-- One value for each type. -/
abbrev Record : List NativeType → Type
  | [] => Unit
  | t :: ts => t.Carrier × Record ts

/-- A value for some of the types. -/
abbrev Draft : List NativeType → Type
  | [] => Unit
  | t :: ts => Option t.Carrier × Draft ts

namespace Record

/-- The values of a record, encoded. -/
def encode : {ts : List NativeType} → Record ts → List Value
  | [], _ => []
  | t :: _, (x, rest) => t.encode x :: encode rest

/-- The record that every field starts with. -/
def initial : (ts : List NativeType) → Record ts
  | [] => ()
  | t :: ts => (t.initial, initial ts)

end Record

namespace Draft

/-- No value yet. -/
def blank : (ts : List NativeType) → Draft ts
  | [] => ()
  | _ :: ts => (none, blank ts)

/-- Decodes a value into the first column of the name.  A name that no column has is passed
over. -/
def assign (name : String) (v : Value) :
    (cs : List Column) → Draft (cs.map (·.native)) → Except Fault (Draft (cs.map (·.native)))
  | [], d => .ok d
  | c :: cs, (x, rest) =>
    if name = c.name then
      match c.native.decode v with
      | .error e => .error (.within (.decodingColumn c.name) e)
      | .ok y => .ok (some y, rest)
    else
      match assign name v cs rest with
      | .error e => .error e
      | .ok rest => .ok (x, rest)

/-- Decodes labeled values from the left. -/
def assignAll (cs : List Column) (d : Draft (cs.map (·.native))) :
    List (String × Value) → Except Fault (Draft (cs.map (·.native)))
  | [] => .ok d
  | (name, v) :: pairs =>
    match assign name v cs d with
    | .error e => .error e
    | .ok d => assignAll cs d pairs

/-- The record of a draft that misses no value. -/
def finish : (cs : List Column) → Draft (cs.map (·.native)) →
    Except Fault (Record (cs.map (·.native)))
  | [], _ => .ok ()
  | c :: cs, (x, rest) =>
    match x with
    | none => .error (.missingColumn c.name)
    | some y =>
      match finish cs rest with
      | .error e => .error e
      | .ok r => .ok (y, r)

end Draft

/-- A record of a schema. -/
structure Entity (s : Schema) where
  stored : Record s.natives
  rest : Record s.transient

namespace Entity

variable {s : Schema}

/-- The values of the columns. -/
def row (e : Entity s) : List Value := e.stored.encode

/-- The columns and their values. -/
def cells (e : Entity s) : List (Column × Value) := s.columns.zip e.row

/-- The value of the primary key, if there is one. -/
def key? (e : Entity s) : Option Value :=
  (e.cells.find? (·.1.primaryKey)).map (·.2)

/-- The value of the primary key, NULL if there is none. -/
def key (e : Entity s) : Value := e.key?.getD .unknown

/-- The values of the fields, as arguments of a template. -/
def bag (e : Entity s) : Bag := .ofList (e.cells.map fun (c, v) => (c.field, .value v))

/-- Reads an entity from a row. -/
def ofRow (s : Schema) (r : LabeledRow) : Except Fault (Entity s) :=
  match Draft.assignAll s.columns (Draft.blank _) (r.labels.zip r.values) with
  | .error e => .error e
  | .ok draft =>
    match draft.finish s.columns with
    | .error e => .error e
    | .ok stored => .ok ⟨stored, .initial _⟩

/-- Reads an entity from each row; the first fault wins. -/
def ofRows (s : Schema) (rows : List LabeledRow) : Except Fault (List (Entity s)) :=
  decodeEach (ofRow s) rows

/-- Rows as a database returns them for some entities. -/
def rowSet (entities : List (Entity s)) : RowSet :=
  ⟨s.columns.map (·.name), entities.map (·.row), .nothing⟩

end Entity

end BoundSql
