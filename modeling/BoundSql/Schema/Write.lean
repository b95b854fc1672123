import BoundSql.Schema.Basic

/-!
# Statements that write entities

`INSERT` with one tuple for each entity, `UPDATE` of some columns of one entity, and `DELETE` by
key.  Values are bound under the names of their fields, numbered where they collide.
-/

namespace BoundSql

namespace Schema

/-- Binds the cells of one tuple, in order. -/
def tupleOf (names : Names) : List (String × Value) → (List Token × List Binding) × Names
  | [] => (([], []), names)
  | (field, v) :: cells =>
    let (name, names) := names.claim field
    let ((tokens, bindings), names) := tupleOf names cells
    let comma := if cells.isEmpty then [] else [Token.text ", "]
    ((.param name :: comma ++ tokens, ⟨name, v⟩ :: bindings), names)

/-- Binds tuples in order, each in parentheses. -/
def tuplesOf (names : Names) :
    List (List (String × Value)) → (List Token × List Binding) × Names
  | [] => (([], []), names)
  | cells :: more =>
    let ((tokens, bindings), names) := tupleOf names cells
    let ((rest, others), names) := tuplesOf names more
    let comma := if more.isEmpty then [] else [Token.text ", "]
    ((.text "(" :: tokens ++ .text ")" :: comma ++ rest, bindings ++ others), names)

/-- The fields and values that an insert binds: those of the columns the database does not
generate. -/
def insertedCells (s : Schema) (generated : Bool) (e : Entity s) : List (String × Value) :=
  (e.cells.filter fun (c, _) => !s.isGenerated generated c).map fun (c, v) => (c.field, v)

/-- `INSERT INTO table (c, d) VALUES (:c, :d), (:c1, :d1)`, one tuple for each entity. -/
def insert (s : Schema) (d : Dialect) (entities : List (Entity s)) (generated : Bool) : Fragment :=
  let columns := s.columns.filter (!s.isGenerated generated ·)
  let head := "INSERT INTO " ++ d.quote s.table ++ " ("
    ++ ", ".intercalate (columns.map (d.quote ·.name)) ++ ") VALUES "
  let ((tokens, bindings), _) := tuplesOf .none (entities.map (s.insertedCells generated))
  ⟨Token.compact (.text head :: tokens), bindings⟩

/-- ` WHERE key = :key` -/
def keyFilter (d : Dialect) (names : Names) (key : Column) (v : Value) : Fragment :=
  let name := (names.claim key.field).1
  .text (" WHERE " ++ d.quote key.name ++ " = ") ++ .param name v

/-- Assignments of the columns at some places to the values there.  Places beyond the last column
are passed over, every assignment but one at the first place has a comma before it, and a column
that is assigned again becomes NULL. -/
def assignments (d : Dialect) (columns : List Column) (row : List Value) (names : Names)
    (first : Bool) : List Nat → Fragment × Names
  | [] => (.empty, names)
  | place :: places =>
    match columns[place]? with
    | none => assignments d columns row names false places
    | some c =>
      let (name, names) := names.claim c.field
      let v := row[place]?.getD .unknown
      let (rest, names) := assignments d columns (row.set place .unknown) names false places
      let text := (if first then "" else ", ") ++ d.quote c.name ++ " = "
      (.text text ++ .param name v ++ rest, names)

/-- `UPDATE table SET c = :c WHERE key = :key`, of the columns at the changed places. -/
def update (s : Schema) (d : Dialect) (e : Entity s) (changed : List Nat) :
    Except Fault Fragment :=
  s.requireKey.map fun key =>
    let (sets, names) := assignments d s.columns e.row .none true changed
    .text ("UPDATE " ++ d.quote s.table ++ " SET ") ++ sets ++ keyFilter d names key e.key

/-- `DELETE FROM table WHERE key = :key` -/
def deleteById (s : Schema) (d : Dialect) (id : Value) : Except Fault Fragment :=
  s.requireKey.map fun key =>
    .text ("DELETE FROM " ++ d.quote s.table) ++ keyFilter d .none key id

end Schema

end BoundSql
