import BoundSql.Query.Builder

/-!
# Operations on statements

What can be done to a builder, as data, so that statements about every statement that can be built
are statements about every list of operations.  Arguments of templates are operands: what a value
or a value with text around it is made from.  A run goes on after an operation that failed.
-/

namespace BoundSql

/-! ### Operations -/

/-- What an argument of a template is made from. -/
inductive Operand where
  | value (v : Value)
  | bound (v : Value)
  | wrapped (template : String) (v : Value)
  | pattern (method : Method) (s : String)
  | timestamp (t : Calendar.Timestamp)
  | list (values : List Value)

/-- The argument made from an operand in a dialect. -/
def Operand.arg (d : Dialect) : Operand → Arg
  | value v => .value v
  | bound v => .wrapped (.bound v)
  | wrapped template v => .wrapped (.wrapped template v)
  | pattern method s => .wrapped (d.pattern method s)
  | timestamp t => .wrapped (d.forTimestamp t)
  | list values => .wrapped (d.forList values)

/-- The operands of one template. -/
inductive Operands where
  | positional (values : List Operand)
  | named (entries : List (String × Operand))

/-- The arguments made from operands in a dialect. -/
def Operands.args (d : Dialect) : Operands → Args
  | positional values => .positional (values.map (·.arg d))
  | named entries => .named (.ofList (entries.map fun (name, x) => (name, x.arg d)))

theorem Bag.ofList_eq_foldl (entries : List (String × Arg)) :
    Bag.ofList entries = entries.foldl (fun b entry => b.insert entry.1 entry.2) .empty := rfl

/-- An operation on a statement. -/
inductive Operation where
  | withAlias (tableAlias : String)
  | select (s : Schema) (tableAlias : String)
  | append (template : String) (operands : Operands)
  | appendFormat (template : String) (args : List String)
  | appendSubquery (head : String) (sub : Fragment)
  | filter (n : Node)
  | leftJoin (s : Schema) (tableAlias : String) (n : Node)
  | selectJoin (source target : Node)
  | orderBy (direction : Direction) (n : Node)
  /-- An operation that is left out where the condition does not hold. -/
  | onlyIf (condition : Bool) (op : Operation)

namespace Operation

/-- What an operation does. -/
def perform : Operation → Building Unit
  | withAlias tableAlias => modify (·.withAlias tableAlias)
  | select s tableAlias => modify (·.select s tableAlias)
  | append template operands => fun b => Building.append template (operands.args b.dialect) b
  | appendFormat template args => Building.appendFormat template args
  | appendSubquery head sub => Building.appendSubquery head sub
  | filter n => Building.filter n
  | leftJoin s tableAlias n => Building.leftJoin s tableAlias n
  | selectJoin source target => Building.selectJoin source target
  | orderBy direction n => Building.orderBy direction n
  | onlyIf condition op => if condition then op.perform else pure ()

/-- Performs operations one after the other, those after a failed one included: the result of each
and the statement in the end. -/
def performAll : List Operation → Builder → List (Except Fault Unit) × Builder
  | [], b => ([], b)
  | op :: ops, b =>
    let (result, b) := op.perform b
    let (results, b) := performAll ops b
    (result :: results, b)

theorem performAll_cons (op : Operation) (ops : List Operation) (b : Builder) :
    performAll (op :: ops) b =
      ((op.perform b).1 :: (performAll ops (op.perform b).2).1,
        (performAll ops (op.perform b).2).2) := rfl

end Operation

/-- How a statement starts. -/
inductive Start where
  | blank
  | condition

/-- The statement before any operation. -/
def Start.builder (d : Dialect) : Start → Builder
  | blank => .new d
  | condition => .condition d

end BoundSql
