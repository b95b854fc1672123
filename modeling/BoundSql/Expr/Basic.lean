import BoundSql.Dialect.Basic

/-!
# Expressions

Trees of columns, values and operators from which the clauses of a statement are compiled.  A value
is a constant, or constructed from other values while the tree is compiled; conversions are
transparent.
-/

namespace BoundSql

/-- A node of an expression. -/
inductive Node where
  /-- A column, with the alias that qualifies it if it names one. -/
  | member (column : ColumnRef) (tableAlias : Option String)
  | constant (v : Value)
  | binary (op : BinaryOp) (lhs rhs : Node)
  | call (method : Method) (receiver : Node) (args : List Node)
  /-- A value constructed from the values of the arguments. -/
  | new (typeName : String) (args : List Node) (build : List Value → Except Fault Value)
  | convert (n : Node)
  | unary (op : UnaryOp) (n : Node)

namespace Node

instance : Inhabited Node := ⟨constant .unknown⟩

/-- The kind of a node, by which faults name it. -/
def kind : Node → NodeKind
  | member .. => .member
  | constant _ => .constant
  | binary .. => .binary
  | call .. => .call
  | new .. => .new
  | convert _ => .convert
  | unary .. => .unary

/-- The column that the node is, under any number of conversions, and its alias. -/
def column? : Node → Option (ColumnRef × Option String)
  | member column tableAlias => some (column, tableAlias)
  | convert n => n.column?
  | _ => none

/-- A column equal to a value. -/
def equals (column : ColumnRef) (v : Value) : Node :=
  binary .eq (member column none) (constant v)

mutual

/-- The value of a node. -/
def evaluate : Node → Except Fault Value
  | constant v => .ok v
  | convert n => n.evaluate
  | new typeName args build =>
    match evaluateAll args with
    | .error e => .error e
    | .ok vs =>
      match build vs with
      | .error e => .error (.construction typeName e)
      | .ok v => .ok v
  | member column _ => .error (.compile .member (.columnForValue column.name))
  | binary .. => .error (.compile .binary .notEvaluable)
  | call .. => .error (.compile .call .notEvaluable)
  | unary .. => .error (.compile .unary .notEvaluable)

/-- The values of the nodes; the first fault wins. -/
def evaluateAll : List Node → Except Fault (List Value)
  | [] => .ok []
  | n :: ns =>
    match n.evaluate with
    | .error e => .error e
    | .ok v =>
      match evaluateAll ns with
      | .error e => .error e
      | .ok vs => .ok (v :: vs)

end

end Node

end BoundSql
