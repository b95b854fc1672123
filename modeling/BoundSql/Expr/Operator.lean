/-!
# Operators, methods and kinds of nodes

The vocabulary of expressions, with its spelling in statements and in diagnostics.
-/

namespace BoundSql

/-- Operators between two operands. -/
inductive BinaryOp where
  | add
  | sub
  | mul
  | div
  | eq
  | ne
  | lt
  | gt
  | le
  | ge
  | and
  | or
  deriving DecidableEq, Repr

namespace BinaryOp

/-- Operators that compare two values. -/
def isComparison : BinaryOp → Bool
  | eq | ne | lt | gt | le | ge => true
  | _ => false

/-- Operators that join two conditions. -/
def isLogical : BinaryOp → Bool
  | and | or => true
  | _ => false

/-- The operator in a statement. -/
def sql : BinaryOp → String
  | add => "+"
  | sub => "-"
  | mul => "*"
  | div => "/"
  | eq => "="
  | ne => "<>"
  | lt => "<"
  | gt => ">"
  | le => "<="
  | ge => ">="
  | and => "AND"
  | or => "OR"

/-- The operator in diagnostics. -/
def name : BinaryOp → String
  | add => "Addition"
  | sub => "Subtraction"
  | mul => "Multiplication"
  | div => "Division"
  | eq => "Equal"
  | ne => "NotEqual"
  | lt => "Less"
  | gt => "Greater"
  | le => "LessEqual"
  | ge => "GreaterEqual"
  | and => "And"
  | or => "Or"

end BinaryOp

/-- Operators on one operand. -/
inductive UnaryOp where
  | neg
  | not
  deriving DecidableEq, Repr

/-- The operator in diagnostics. -/
def UnaryOp.name : UnaryOp → String
  | neg => "Negative"
  | not => "Not"

/-- Methods that a statement can express. -/
inductive Method where
  | contains
  | startsWith
  | endsWith
  deriving DecidableEq, Repr

/-- The method in diagnostics. -/
def Method.name : Method → String
  | contains => "Contains"
  | startsWith => "StartsWith"
  | endsWith => "EndsWith"

/-- Kinds of expression nodes. -/
inductive NodeKind where
  | member
  | constant
  | binary
  | call
  | new
  | convert
  | unary
  deriving DecidableEq, Repr

/-- The kind in diagnostics. -/
def NodeKind.name : NodeKind → String
  | member => "member access"
  | constant => "constant"
  | binary => "binary"
  | call => "method call"
  | new => "constructor"
  | convert => "conversion"
  | unary => "unary"

/-- Directions of an ordering. -/
inductive Direction where
  | ascending
  | descending
  deriving DecidableEq, Repr

/-- The direction in a statement. -/
def Direction.sql : Direction → String
  | ascending => "ASC"
  | descending => "DESC"

end BoundSql
