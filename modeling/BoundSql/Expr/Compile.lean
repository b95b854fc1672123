import BoundSql.Expr.Basic

/-!
# Compiling expressions

What an expression means in a clause: a condition in a filter, equalities of columns in a join, a
column in an ordering.  Values are bound under names made from the field of the column they are
compared with; a name claimed before a fault stays claimed.

A negation is written into the operators that have a negative form, cancelled by another one, and
otherwise put around the condition.
-/

namespace BoundSql

/-- The clauses that expressions are compiled for. -/
inductive Clause where
  | filter
  | join
  | order
  deriving DecidableEq, Repr

namespace Claiming

/-- Fails with a fault. -/
def fault {α : Type} (e : Fault) : Claiming α := fun names => (.error e, names)

/-- A result that claims no name. -/
def ofExcept {α : Type} (r : Except Fault α) : Claiming α := fun names => (r, names)

end Claiming

/-- A text alone, which claims no name. -/
def written (s : String) : Claiming Fragment := pure (.text s)

/-- What a node cannot be compiled for. -/
def obstructed {α : Type} (kind : NodeKind) (obstacle : Obstacle) : Claiming α :=
  Claiming.fault (.compile kind obstacle)

/-- A marker for a value, named after `base`. -/
def boundAs (base : String) (v : Value) : Claiming Fragment := do
  let name ← claimName base
  return .param name v

namespace Dialect

variable (d : Dialect) (scope : Scope)

/-- A column as a fragment. -/
def columnText (c : ColumnRef × Option String) : String := d.columnRef scope c.2 c.1

/-- The condition that compares a column with a value; NULL is only compared by being NULL. -/
def comparison (op : BinaryOp) (lhs rhs : Node) : Claiming Fragment :=
  match lhs.column? with
  | none => obstructed lhs.kind .leftNotColumn
  | some c => do
    let v ← Claiming.ofExcept rhs.evaluate
    if v.isNull then
      match op with
      | .eq => written (d.columnText scope c ++ " IS NULL")
      | .ne => written (d.columnText scope c ++ " IS NOT NULL")
      | _ => obstructed .constant (.nullComparison op)
    else
      let param ← boundAs c.1.field v
      return .text (d.columnText scope c ++ " " ++ op.sql ++ " ") ++ param

/-- The pattern of a method for a text. -/
def pattern (method : Method) (s : String) : WrappedValue :=
  match method with
  | .contains => d.forContains s
  | .startsWith => d.forStartsWith s
  | .endsWith => d.forEndsWith s

/-- The condition that a column matches the pattern of a method. -/
def likeness (negated : Bool) (method : Method) (c : ColumnRef × Option String) (arg : Node) :
    Claiming Fragment := do
  match ← Claiming.ofExcept arg.evaluate with
  | .scalar (.varchar s) =>
    let value ← (d.pattern method s).splice c.1.field
    return .text (d.columnText scope c ++ if negated then " NOT LIKE " else " LIKE ") ++ value
  | _ => obstructed .call (.textExpected method c.1.name)

/-- The condition that a column is among the values of a list.  Nothing is among none. -/
def membership (negated : Bool) (receiver arg : Node) : Claiming Fragment :=
  match arg.column? with
  | none => obstructed arg.kind .memberNotColumn
  | some c => do
    match ← Claiming.ofExcept receiver.evaluate with
    | .list [] _ => written (if negated then "1=1" else "1=0")
    | .list (v :: vs) _ =>
      let list ← (d.forList (v :: vs)).splice c.1.field
      return .text (d.columnText scope c ++ if negated then " NOT IN " else " IN ") ++ list
    | _ => obstructed receiver.kind .listExpected

/-- The condition of a method call. -/
def callCondition (negated : Bool) (method : Method) (receiver : Node) (args : List Node) :
    Claiming Fragment :=
  match args with
  | [arg] =>
    match receiver.column? with
    | some c => d.likeness scope negated method c arg
    | none =>
      if method = .contains then d.membership scope negated receiver arg
      else obstructed .call (.receiverNotColumn method)
  | _ => obstructed .call (.argumentCount method args.length)

/-- Puts a negation around a condition. -/
def negatedIf (negated : Bool) (f : Fragment) : Fragment :=
  if negated then .text "NOT (" ++ f ++ .text ")" else f

/-- Two conditions joined by an operator, in parentheses. -/
def joined (op : BinaryOp) (l r : Fragment) : Fragment :=
  .text "(" ++ l ++ .text (" " ++ op.sql ++ " ") ++ r ++ .text ")"

/-- The condition of a node, or its negation. -/
def condition (negated : Bool) : Node → Claiming Fragment
  | .binary op lhs rhs =>
    if op.isLogical then do
      let l ← condition false lhs
      let r ← condition false rhs
      return negatedIf negated (joined op l r)
    else if op.isComparison then do
      let f ← d.comparison scope op lhs rhs
      return negatedIf negated f
    else obstructed .binary (.noCondition op.name)
  | .call method receiver args => d.callCondition scope negated method receiver args
  | .unary .not n => condition (!negated) n
  | .unary .neg _ => obstructed .unary (.noCondition UnaryOp.neg.name)
  | .convert n => condition negated n
  | .member column _ => obstructed .member (.bareColumn column.name)
  | .constant _ => obstructed .constant .bareValue
  | .new .. => obstructed .new .bareValue

/-- The condition of a join: comparisons of two columns. -/
def joinCondition : Node → Claiming Fragment
  | .binary op lhs rhs =>
    if op.isLogical then do
      let l ← joinCondition lhs
      let r ← joinCondition rhs
      return joined op l r
    else if op.isComparison then
      match lhs.column?, rhs.column? with
      | some l, some r =>
        written (d.columnText scope l ++ " " ++ op.sql ++ " " ++ d.columnText scope r)
      | _, _ => obstructed .binary .joinNeedsColumns
    else obstructed .binary .joinNeedsColumns
  | .convert n => joinCondition n
  | n => obstructed n.kind .joinNeedsColumns

/-- A column to order by. -/
def orderColumn (n : Node) : Claiming Fragment :=
  match n.column? with
  | some c => written (d.columnText scope c)
  | none => obstructed n.kind .columnExpected

/-- What a node means in a clause. -/
def compile (clause : Clause) (n : Node) : Claiming Fragment :=
  match clause with
  | .filter => d.condition scope false n
  | .join => d.joinCondition scope n
  | .order => d.orderColumn scope n

end Dialect

end BoundSql
