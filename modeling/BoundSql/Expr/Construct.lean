import BoundSql.Expr.Basic
import BoundSql.Value.Decode

/-!
# Constructors of values

Functions from argument values to a value, for `new` nodes.
-/

namespace BoundSql.Construct

open Numeric

/-- A decimal of a coefficient and a scale. -/
def decimal : List Value → Except Fault Value
  | [coefficient, scale] => do
    let n ← BaseType.decodeInteger .int64 coefficient
    let k ← BaseType.decodeInteger .uint32 scale
    match Decimal.ofInt? n.toInt k.toInt.toNat with
    | some d => .ok (.scalar (BaseType.decimal.encode d))
    | none => .error .scaleOutOfRange
  | _ => .error .twoArgumentsExpected

/-- The texts one after the other. -/
def concat (args : List Value) : Except Fault Value :=
  (decodeEach (BaseType.decode .text) args).map fun texts => .varchar (String.join texts)

/-- A list of the arguments, of the type of the first one. -/
def list (args : List Value) : Except Fault Value :=
  .ok (.list args ((args.head?.map (·.type)).getD .unknown))

/-- NULL of unknown type. -/
def null (_ : List Value) : Except Fault Value := .ok .unknown

/-- A constructor that always fails. -/
def fail (_ : List Value) : Except Fault Value :=
  .error (.within (.remark "outer cause") (.refused (.reported "inner cause")))

end BoundSql.Construct
