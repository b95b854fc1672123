import BoundSql.Expr.Operator
import BoundSql.Text.Cut
import BoundSql.Value.Describe
import BoundSql.Value.Native

/-!
# Faults

Everything that can go wrong, by cause.  A fault may lie under the circumstances it arose in; its
wording (`Fault.texts`) is the outermost text followed by the texts below it.
`Fault.category` finds the class of a fault under any number of circumstances.
-/

namespace BoundSql

open Numeric

/-- A text as diagnostics quote names and statements. -/
def ticked (s : String) : String := "`" ++ s ++ "`"

/-! ## Decoding values -/

/-- Why a value is no value of a type. -/
inductive DecodingFault where
  | unexpectedNull (type : NativeType)
  | mismatch (value : Value) (type : NativeType)
  | outOfRange (n : Int) (type : IntType)
  | notDecimal (t : FloatType) (x : Binary t)
  | unreadable (text : String) (type : BaseType)

namespace DecodingFault

/-- What a text failed to be read as. -/
def target : BaseType → String
  | .decimal => "Decimal"
  | .date => "Date"
  | .time => "Time"
  | .timestamp => "timestamp"
  | .uuid => "Uuid"
  | b => b.name

def message : DecodingFault → String
  | unexpectedNull type =>
    "Cannot convert NULL into " ++ type.name ++ ", use Option<" ++ type.name
      ++ "> for nullable columns"
  | mismatch value type =>
    "Cannot convert " ++ value.type.name ++ " (" ++ value.describe ++ ") into " ++ type.name
  | outOfRange n type =>
    "Value " ++ intText n ++ " is out of range for " ++ BaseType.name (.integer type)
  | notDecimal _ x => "Value " ++ x.text .plain ++ " cannot be represented as Decimal"
  | unreadable text type => "Cannot parse " ++ ticked text ++ " as " ++ target type

end DecodingFault

/-! ## Templates -/

/-- Why the values given for a template do not match its placeholders. -/
inductive CountFault where
  | missingArgument (template : String) (index count : Nat)
  | tooFewValues (template : String) (placeholders values : Nat)
  | missingName (name template : String)
  | markers (name : String) (found items : Nat)

def CountFault.message : CountFault → String
  | missingArgument template index count =>
    ticked template ++ " references argument " ++ natText index ++ " but " ++ natText count
      ++ " were provided"
  | tooFewValues template placeholders values =>
    ticked template ++ " has " ++ natText placeholders ++ " placeholders but " ++ natText values
      ++ " values were provided"
  | missingName name template => "no value named " ++ ticked name ++ " for " ++ ticked template
  | markers name found items =>
    "the list template for " ++ ticked name ++ " has " ++ natText found
      ++ " markers but the list has " ++ natText items ++ " items"

/-- Why a template cannot take the values given for it. -/
inductive TemplateFault where
  | placeholders (template : String) (count : Nat)
  | malformedSlot (template : String)
  | strayValues (template : String)

def TemplateFault.message : TemplateFault → String
  | placeholders template count =>
    ticked template ++ " contains " ++ natText count
      ++ " placeholder(s), use append to bind values"
  | malformedSlot template => ticked template ++ " has a malformed positional slot"
  | strayValues template =>
    "values were provided for " ++ ticked template ++ " which has no placeholders"

/-! ## Expressions -/

/-- Why an expression has no form in SQL. -/
inductive Obstacle where
  | columnExpected
  | noCondition (operator : String)
  | bareColumn (column : String)
  | bareValue
  | leftNotColumn
  | nullComparison (op : BinaryOp)
  | argumentCount (method : Method) (count : Nat)
  | textExpected (method : Method) (column : String)
  | receiverNotColumn (method : Method)
  | memberNotColumn
  | listExpected
  | joinNeedsColumns
  | columnForValue (column : String)
  | notEvaluable
  | noSelectList (source label : String)
  | qualifiedDelete (table : String)

def Obstacle.reason : Obstacle → String
  | columnExpected => "expected a column of the queried tables"
  | noCondition operator => "operator " ++ operator ++ " does not produce a condition"
  | bareColumn column => "column " ++ ticked column ++ " alone is not a condition"
  | bareValue => "a value alone is not a condition"
  | leftNotColumn => "the left operand of a comparison must be a column"
  | nullComparison op => "NULL cannot be compared with " ++ op.name
  | argumentCount method count => method.name ++ " expects one argument, got " ++ natText count
  | textExpected method column =>
    method.name ++ " on column " ++ ticked column ++ " expects a text argument"
  | receiverNotColumn method => method.name ++ " needs a column as receiver"
  | memberNotColumn => "the argument of a list membership test must be a column"
  | listExpected => "the receiver of a membership test must be a list of values"
  | joinNeedsColumns => "join conditions compare two columns"
  | columnForValue column => "expected a value but found column " ++ ticked column
  | notEvaluable => "cannot be evaluated to a value"
  | noSelectList source label =>
    "selecting " ++ source ++ " as " ++ label ++ " needs a SELECT ... FROM statement"
  | qualifiedDelete table =>
    "DELETE FROM " ++ ticked table ++ " takes unqualified columns, use a condition builder"

/-! ## Pages, transactions, clients, entities -/

/-- Why there is no such page. -/
inductive PageFault where
  | startsAtOne (page size : Nat)
  | outOfRange (page size : Nat)
  | emptyPages

def PageFault.message : PageFault → String
  | startsAtOne page size =>
    "page " ++ natText page ++ " of size " ++ natText size ++ " does not exist, both start at 1"
  | outOfRange page size =>
    "page " ++ natText page ++ " of size " ++ natText size ++ " is out of range"
  | emptyPages => "page size must be at least 1"

/-- A transaction that is open, or is not, where it should be the other way round. -/
inductive TransactionFault where
  | alreadyOpen
  | nothingToCommit
  | nothingToRollBack

def TransactionFault.message : TransactionFault → String
  | alreadyOpen => "a transaction is already open"
  | nothingToCommit => "there is no open transaction to commit"
  | nothingToRollBack => "there is no open transaction to roll back"

/-- What a database refuses. -/
inductive Refusal where
  | connection (message target : String)
  | statement (fragment : String)
  | begun
  | nothingToCommit
  | commit
  | nothingToRollBack
  | reported (message : String)

def Refusal.message : Refusal → String
  | connection message target => message ++ " (" ++ target ++ ")"
  | statement fragment => "Statement rejected, it contains " ++ ticked fragment
  | begun => "The connection already has an open transaction"
  | nothingToCommit => "No transaction to commit"
  | commit => "Commit rejected"
  | nothingToRollBack => "No transaction to roll back"
  | reported message => message

/-- What was going on when a fault arose. -/
inductive Circumstance where
  | beginning
  | executing (sql : String)
  | decodingColumn (column : String)
  | readingMaximum (column : String)
  | remark (text : String)

def Circumstance.message : Circumstance → String
  | beginning => "Could not begin the transaction"
  | executing sql => "While executing " ++ ticked (Text.abbreviate sql)
  | decodingColumn column => "While decoding column " ++ ticked column
  | readingMaximum column => "Unexpected maximum of " ++ ticked column
  | remark text => text

/-! ## All faults -/

inductive Fault where
  | decoding (f : DecodingFault)
  | count (f : CountFault)
  | template (f : TemplateFault)
  | compile (kind : NodeKind) (obstacle : Obstacle)
  | construction (typeName : String) (cause : Fault)
  | twoArgumentsExpected
  | scaleOutOfRange
  | page (f : PageFault)
  | transaction (f : TransactionFault)
  | unregisteredDialect (name : String)
  | schemeMissing (url : String)
  | emptyBatches
  | keyless (table : String)
  | missingColumn (column : String)
  | refused (r : Refusal)
  | within (circumstance : Circumstance) (cause : Fault)

/-- Classes of faults that a caller may tell apart. -/
inductive FaultCategory where
  | compile (kind : NodeKind)
  | parameterCount
  | rawTemplate
  | pageSize
  | transactionState
  | unregisteredDialect
  | other
  deriving DecidableEq, Repr

namespace Fault

/-- The class of a fault, under whatever circumstances it arose. -/
def category : Fault → FaultCategory
  | compile kind _ => .compile kind
  | construction .. => .compile .new
  | count _ => .parameterCount
  | template _ => .rawTemplate
  | page _ => .pageSize
  | transaction _ => .transactionState
  | unregisteredDialect _ => .unregisteredDialect
  | within _ cause => cause.category
  | _ => .other

/-- The text of a node that cannot be compiled. -/
def compileMessage (kind : NodeKind) (reason : String) : String :=
  "Cannot compile " ++ kind.name ++ " expression: " ++ reason

/-- The texts of a fault, the outermost one first. -/
def texts : Fault → List String
  | decoding f => [f.message]
  | count f => ["Parameter count mismatch: " ++ f.message]
  | template f => ["Raw template violation: " ++ f.message]
  | compile kind obstacle => [compileMessage kind obstacle.reason]
  | construction typeName cause =>
    [compileMessage .new
      ("constructing " ++ typeName ++ " failed: " ++ ": ".intercalate cause.texts)]
  | twoArgumentsExpected => ["expected two arguments"]
  | scaleOutOfRange => ["scale out of range"]
  | page f => ["Invalid page request: " ++ f.message]
  | transaction f => ["Transaction state error: " ++ f.message]
  | unregisteredDialect name => ["Dialect " ++ ticked name ++ " is not registered"]
  | schemeMissing url =>
    ["Connection url " ++ ticked url ++ " must start with the dialect name, like `sqlite://`"]
  | emptyBatches => ["The batch size must be at least 1"]
  | keyless table => ["Entity " ++ ticked table ++ " does not declare a primary key"]
  | missingColumn column =>
    ["Column " ++ ticked column ++ " does not exist in the row provided"]
  | refused r => [r.message]
  | within circumstance cause => circumstance.message :: cause.texts

/-- The outermost text of a fault. -/
def message (f : Fault) : String := f.texts.headD ""

/-- The texts of a fault below the outermost one, outside in. -/
def causes (f : Fault) : List String := f.texts.drop 1

end Fault

end BoundSql
