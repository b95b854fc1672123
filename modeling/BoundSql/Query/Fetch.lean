import BoundSql.Query.Builder

/-!
# Running statements

What can be asked of a statement: its rows, a page of them, their number, a single value, or to
change rows.  Whatever runs the statements is an `Executor` over a state of its own.
-/

namespace BoundSql

/-- A computation on a state that may fail; what it did until then stays done. -/
abbrev Run (σ : Type) := ExceptT Fault (StateM σ)

/-- Runs one statement with its parameters. -/
abbrev Executor (σ : Type) := String → List Binding → Run σ RowSet

namespace Run

/-- Fails with a fault. -/
def fault {σ α : Type} (e : Fault) : Run σ α := fun s => (.error e, s)

/-- A result that does not depend on the state. -/
def ofExcept {σ α : Type} (r : Except Fault α) : Run σ α := fun s => (r, s)

end Run

/-- A page of entities and what it is a page of. -/
structure PageResult (α : Type) where
  rows : List α
  totalRows : Nat
  totalPages : Nat

namespace Builder

variable {σ : Type} (b : Builder) (exec : Executor σ)

/-- The rows of the statement. -/
def fetchRows : Run σ RowSet := exec b.sql b.body.bindings

/-- The single value of the statement, NULL if it has no rows. -/
def fetchScalar (t : NativeType) : Run σ t.Carrier := do
  let rows ← b.fetchRows exec
  Run.ofExcept (t.decode rows.scalar)

/-- Whether the single value of the statement is there and not NULL. -/
def fetchExists : Run σ Bool := do
  let rows ← b.fetchRows exec
  return rows.scalar?.any (!·.isNull)

/-- The statement that counts the rows. -/
def countSql : String := b.dialect.countSql (withOrder b.bodySql b.orderBy)

/-- The number of rows of the statement. -/
def fetchCount : Run σ Nat := do
  let rows ← exec b.countSql b.body.bindings
  let count ← Run.ofExcept ((NativeType.option (.base (.integer .uint64))).decode rows.scalar)
  return (count.map (·.toInt.toNat)).getD 0

/-- The number of rows and of pages. -/
def fetchPageCount (size : Nat) : Run σ (Nat × Nat) := do
  if size = 0 then Run.fault (.page .emptyPages)
  else
    let count ← b.fetchCount exec
    return (count, pageCount count size)

/-- What the statement changed. -/
def execute : Run σ Affected := do
  let rows ← b.fetchRows exec
  return rows.affected

variable (s : Schema)

/-- The entities of the statement. -/
def fetchList : Run σ (List (Entity s)) := do
  let rows ← b.fetchRows exec
  Run.ofExcept (Entity.ofRows s rows.labeled)

/-- The first entity of some rows. -/
def firstEntity (rows : RowSet) : Except Fault (Option (Entity s)) :=
  match rows.labeled with
  | [] => .ok none
  | row :: _ => (Entity.ofRow s row).map some

/-- The first entity of the statement. -/
def fetchOne : Run σ (Option (Entity s)) := do
  let rows ← b.fetchRows exec
  Run.ofExcept (firstEntity s rows)

/-- The entities of a page. -/
def fetchPage (page size : Nat) : Run σ (List (Entity s)) := do
  Run.ofExcept (checkPage page size)
  let sql ← Run.ofExcept (b.dialect.pageSql b.bodySql b.orderBy size page)
  let rows ← exec sql b.body.bindings
  Run.ofExcept (Entity.ofRows s rows.labeled)

/-- The entities of a page, and the totals. -/
def fetchPaged (page size : Nat) : Run σ (PageResult (Entity s)) := do
  Run.ofExcept (checkPage page size)
  let (totalRows, totalPages) ← b.fetchPageCount exec size
  let rows ← b.fetchPage exec s page size
  return ⟨rows, totalRows, totalPages⟩

/-- The statement that deletes the rows of a table that pass the filter clause. -/
def deleteSql : String := "DELETE FROM " ++ b.dialect.quote s.table ++ b.dialect.render b.body

/-- Deletes the rows of a table that pass the filter clause, whose columns must not be
qualified. -/
def delete : Run σ Affected := do
  if b.qualify then Run.fault (.compile .member (.qualifiedDelete s.table))
  else
    let rows ← exec (b.deleteSql s) b.body.bindings
    return rows.affected

end Builder

end BoundSql
