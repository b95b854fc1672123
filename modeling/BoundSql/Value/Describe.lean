import BoundSql.Text.Quoted
import BoundSql.Value.Basic

/-!
# Values in diagnostics

The text that error messages show of a value.  It names the variant, tells a NULL from a value and
writes lists and declared types in full.
-/

namespace BoundSql

open Numeric

/-- Texts between brackets, with a comma between each two. -/
def bracketed (items : List String) : String := "[" ++ ", ".intercalate items ++ "]"

/-- The name of the variant that holds values of the type. -/
def SqlType.variant : SqlType → String
  | unknown => "Null"
  | boolean => "Boolean"
  | integer .int8 => "Int8"
  | integer .int16 => "Int16"
  | integer .int32 => "Int32"
  | integer .int64 => "Int64"
  | integer .uint8 => "UInt8"
  | integer .uint16 => "UInt16"
  | integer .uint32 => "UInt32"
  | integer .uint64 => "UInt64"
  | binary .single => "Float32"
  | binary .double => "Float64"
  | decimal .. => "Decimal"
  | varchar => "Varchar"
  | blob => "Blob"
  | date => "Date"
  | time => "Time"
  | timestamp => "Timestamp"
  | offsetTimestamp => "TimestampWithTimezone"
  | uuid => "Uuid"
  | list _ => "List"

/-- NULL of the type. -/
def SqlType.describe : SqlType → String
  | unknown => "Null"
  | decimal precision scale =>
    "Decimal(None, " ++ natText precision ++ ", " ++ natText scale ++ ")"
  | list item => "List(None, " ++ item.describe ++ ")"
  | t => t.variant ++ "(None)"

/-- The content of a scalar. -/
def Scalar.content : Scalar → String
  | boolean b => if b then "true" else "false"
  | integer _ n => intText n.toInt
  | binary _ x => x.text .diagnostic
  | decimal d _ _ => d.text
  | varchar s => Text.quoted s
  | blob bytes => bracketed (bytes.map fun b => natText b.toNat)
  | date d => d.text
  | time c => c.describe
  | timestamp t => t.describe
  | offsetTimestamp t => t.describe
  | uuid u => u.text

/-- A scalar with its variant and its declared places. -/
def Scalar.describe (s : Scalar) : String :=
  let places := match s with
    | decimal _ precision scale => ", " ++ natText precision ++ ", " ++ natText scale
    | _ => ""
  s.type.variant ++ "(Some(" ++ s.content ++ ")" ++ places ++ ")"

namespace Value

mutual

/-- The text of a value in diagnostics. -/
def describe : Value → String
  | null t => t.describe
  | scalar s => s.describe
  | list items item =>
    "List(Some(" ++ bracketed (describeAll items) ++ "), " ++ item.describe ++ ")"

/-- The texts of the items of a list. -/
def describeAll : List Value → List String
  | [] => []
  | v :: vs => describe v :: describeAll vs

end

end Value

end BoundSql
