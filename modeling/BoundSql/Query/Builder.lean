import BoundSql.Dialect.Standard
import BoundSql.Expr.Compile
import BoundSql.Query.Args
import BoundSql.Schema.Basic
import BoundSql.Template.Format

/-!
# Building statements

A builder is a statement that grows by operations: templates whose placeholders are bound,
conditions, joins, orderings.  An operation that fails leaves the statement as it was; the names it
has claimed until then stay claimed.
-/

namespace BoundSql

/-- A statement in the making. -/
structure Builder where
  dialect : Dialect
  body : Fragment
  /-- The names taken by the bindings, and by operations that failed. -/
  names : Names
  orderBy : String
  tableAlias : String
  qualify : Bool

/-- An operation on a builder. -/
abbrev Building := ExceptT Fault (StateM Builder)

namespace Builder

/-! ### Starting -/

/-- An empty statement. -/
def new (d : Dialect) : Builder := ⟨d, .empty, .none, "", "t", true⟩

instance : Inhabited Builder := ⟨new .sqlite⟩

/-- A filter clause alone, of columns that are not qualified. -/
def condition (d : Dialect) : Builder := { new d with qualify := false, body := .sentinel }

/-- What columns are read against. -/
def scope (b : Builder) : Scope := ⟨b.qualify, b.tableAlias⟩

/-- The statement with another alias for columns that name none. -/
def withAlias (b : Builder) (tableAlias : String) : Builder := { b with tableAlias }

/-- `SELECT alias.c, alias.d FROM table alias` and the opening of a filter clause. -/
def select (b : Builder) (s : Schema) (tableAlias : String) : Builder :=
  let columns := s.columns.map fun c => b.dialect.columnRef ⟨true, tableAlias⟩ none (s.ref c)
  let text := " SELECT " ++ ", ".intercalate columns ++ " FROM "
    ++ b.dialect.tableRef s.table (some tableAlias)
  { b with tableAlias, qualify := true, body := b.body ++ .text text ++ .sentinel }

/-! ### Rendering -/

/-- The whole statement, its ordering included. -/
def build (b : Builder) : Fragment :=
  (if b.orderBy = "" then b.body else b.body ++ .text (" " ++ b.orderBy)).trim

/-- The text of the statement. -/
def sql (b : Builder) : String := b.dialect.render b.build

/-- The text of the statement without its ordering. -/
def bodySql (b : Builder) : String := Text.trim (b.dialect.render b.body)

/-- The statement as a part of another one: its filter clauses are closed to later joins. -/
def toFragment (b : Builder) : Fragment := b.build.sealed.trim

end Builder

namespace Building

/-- Fails with a fault. -/
def fault {α : Type} (e : Fault) : Building α := fun b => (.error e, b)

/-- A result that does not depend on the statement. -/
def ofExcept {α : Type} (r : Except Fault α) : Building α := fun b => (r, b)

/-- Runs a computation on the names of the statement. -/
def claiming {α : Type} (c : Builder → Claiming α) : Building α := fun b =>
  let (r, names) := c b b.names
  (r, { b with names })

/-- Puts a fragment after the statement. -/
def push (f : Fragment) : Building Unit := modify fun b => { b with body := b.body ++ f }

/-! ### Templates -/

/-- The argument of each placeholder.  Surplus values are ignored, but values for a template
without placeholders are a fault. -/
def resolve (template : String) (names : List String) (args : Args) :
    Except Fault (List (String × Arg)) :=
  if names.isEmpty && !args.isEmpty then .error (.template (.strayValues template))
  else match args with
    | .positional values =>
      if values.length < names.length then
        .error (.count (.tooFewValues template names.length values.length))
      else .ok (names.zip values)
    | .named bag =>
      decodeEach (fun name =>
        match bag.get? name with
        | some arg => .ok (name, arg)
        | none => .error (.count (.missingName name template))) names

/-- What stands for a placeholder: a marker of its own, or the text of a wrapped value. -/
def place (name : String) : Option Arg → Claiming Fragment
  | some (.value v) => boundAs name v
  | some (.wrapped w) => w.splice name
  | none => pure .empty

/-- The tokens of a template with its placeholders bound.  A placeholder that comes again is
written like the first time and binds nothing more; `written` holds what was written. -/
def expand (resolved : List (String × Arg)) (written : List (String × List Token)) :
    List Token → Claiming Fragment
  | [] => pure .empty
  | .param name :: ts => do
    match written.lookup name with
    | some tokens =>
      let rest ← expand resolved written ts
      return Fragment.empty.pushTokens tokens ++ rest
    | none =>
      let value ← place name (resolved.lookup name)
      let rest ← expand resolved ((name, value.tokens) :: written) ts
      return value ++ rest
  | t :: ts => do
    let rest ← expand resolved written ts
    return Fragment.empty.pushTokens [t] ++ rest

/-- Appends a template after a space. -/
def append (template : String) (args : Args) : Building Unit := do
  let template := Text.trim template
  let tokens := Template.scan template
  let resolved ← ofExcept (resolve template (Template.placeholders tokens) args)
  let piece ← claiming fun _ => expand resolved [] tokens
  push (.text " " ++ piece)

/-- Appends a template with slots filled by texts, after a space. -/
def appendFormat (template : String) (args : List String) : Building Unit := do
  let text ← ofExcept (Template.format (Text.trim template) args)
  push (.text (" " ++ text))

/-- Appends another statement in parentheses, its parameters renamed where they collide. -/
def appendSubquery (head : String) (sub : Fragment) : Building Unit := do
  let sub ← claiming fun _ names =>
    let (f, names) := sub.claimNames names
    (.ok f, names)
  push (.text (" " ++ Text.trim head ++ " (") ++ sub ++ .text ")")

/-! ### Expressions -/

/-- Compiles an expression for a clause of the statement. -/
def compile (clause : Clause) (n : Node) : Building Fragment :=
  claiming fun b => b.dialect.compile b.scope clause n

/-- The text of a column of the statement. -/
def columnText (qualified : Bool) (n : Node) : Building String := do
  let b ← get
  let f ← claiming fun b => b.dialect.compile { b.scope with qualify := qualified } .order n
  return b.dialect.render f

/-- Appends ` AND (condition)`. -/
def filter (n : Node) : Building Unit := do
  let f ← compile .filter n
  push (.text " AND (" ++ f ++ .text ")")

/-- Joins a table.  The filter clause moves behind the join. -/
def leftJoin (s : Schema) (tableAlias : String) (n : Node) : Building Unit := do
  let f ← compile .join n
  modify fun b =>
    let (clause, body) := b.body.takeFilterClause
    let head := " LEFT JOIN " ++ b.dialect.tableRef s.table (some tableAlias) ++ " ON "
    { b with body := ((body ++ .text head ++ f) ++ .sentinel).pushTokens (clause.getD []) }

/-- Selects a column, usually one of a joined table, under the name of another column, which is
no longer selected itself. -/
def selectJoin (source target : Node) : Building Unit := do
  let b ← get
  let source ← columnText b.qualify source
  let replaced ← columnText b.qualify target
  let label ← columnText false target
  let edit := fun items : List String => items.filter (· != replaced) ++ [source ++ " AS " ++ label]
  match b.body.editSelectList? edit with
  | some body => modify fun b => { b with body }
  | none => fault (.compile .member (.noSelectList source label))

/-- Orders by a column, after the columns it is ordered by already. -/
def orderBy (direction : Direction) (n : Node) : Building Unit := do
  let b ← get
  let column ← columnText b.qualify n
  modify fun b =>
    let before := if b.orderBy = "" then "ORDER BY " else b.orderBy ++ ", "
    { b with orderBy := before ++ column ++ " " ++ direction.sql }

end Building

end BoundSql
