import BoundSql.Value.Basic

/-!
# Types of a program

The types that the fields of a record and the results of a query have in a program: base types and
any nesting of options and lists over them.  Each has a carrier of Lean values, an SQL type, and an
encoding of its carrier as a value: a missing option becomes the NULL of the type inside, and a
list carries the type of its items.
-/

namespace BoundSql

open Numeric Calendar

/-- The types that options and lists are built over. -/
inductive BaseType where
  | boolean
  | integer (t : IntType)
  | binary (t : FloatType)
  | decimal
  | text
  | bytes
  | date
  | time
  | timestamp
  | offsetTimestamp
  | uuid
  deriving DecidableEq, Repr

/-- A type of a program. -/
inductive NativeType where
  | base (b : BaseType)
  | option (t : NativeType)
  | list (t : NativeType)
  deriving DecidableEq, Repr

namespace BaseType

/-- The values of the type. -/
abbrev Carrier : BaseType → Type
  | boolean => Bool
  | integer t => Integer t
  | binary t => Binary t
  | decimal => Decimal
  | text => String
  | bytes => List UInt8
  | date => Date
  | time => Clock
  | timestamp => Timestamp
  | offsetTimestamp => OffsetTimestamp
  | uuid => Uuid

/-- The SQL type of the type. -/
def sqlType : BaseType → SqlType
  | boolean => .boolean
  | integer t => .integer t
  | binary t => .binary t
  | decimal => .decimal 0 0
  | text => .varchar
  | bytes => .blob
  | date => .date
  | time => .time
  | timestamp => .timestamp
  | offsetTimestamp => .offsetTimestamp
  | uuid => .uuid

/-- The scalar of a value of the type.  A decimal declares the scale it has. -/
def encode : (b : BaseType) → b.Carrier → Scalar
  | boolean, b => .boolean b
  | integer t, n => .integer t n
  | binary t, x => .binary t x
  | decimal, d => .decimal d 0 d.scale
  | text, s => .varchar s
  | bytes, bs => .blob bs
  | date, d => .date d
  | time, c => .time c
  | timestamp, t => .timestamp t
  | offsetTimestamp, t => .offsetTimestamp t
  | uuid, u => .uuid u

/-- The name of the type in diagnostics. -/
def name : BaseType → String
  | boolean => "bool"
  | integer .int8 => "i8"
  | integer .int16 => "i16"
  | integer .int32 => "i32"
  | integer .int64 => "i64"
  | integer .uint8 => "u8"
  | integer .uint16 => "u16"
  | integer .uint32 => "u32"
  | integer .uint64 => "u64"
  | binary .single => "f32"
  | binary .double => "f64"
  | decimal => "rust_decimal::decimal::Decimal"
  | text => "alloc::string::String"
  | bytes => "alloc::boxed::Box<[u8]>"
  | date => "time::date::Date"
  | time => "time::time::Time"
  | timestamp => "time::plain_date_time::PlainDateTime"
  | offsetTimestamp => "time::offset_date_time::OffsetDateTime"
  | uuid => "uuid::Uuid"

/-- The midnight that starts the year 1970. -/
def epoch : Timestamp where
  date := ⟨1970, 1, 1, by decide, by decide, by decide, by decide⟩
  clock := .midnight

/-- The value a field starts with. -/
def initial : (b : BaseType) → b.Carrier
  | boolean => false
  | integer t => ⟨0, by cases t <;> decide, by cases t <;> decide⟩
  | binary _ => .ofMagnitude false 0
  | decimal => ⟨false, 0, 0, by decide, by decide⟩
  | text => ""
  | bytes => []
  | date => epoch.date
  | time => epoch.clock
  | timestamp => epoch
  | offsetTimestamp => .atUniversal epoch
  | uuid => ⟨0⟩

end BaseType

namespace NativeType

/-- The values of the type. -/
abbrev Carrier : NativeType → Type
  | base b => b.Carrier
  | option t => Option t.Carrier
  | list t => List t.Carrier

/-- The SQL type of the type; an option has the one of the type inside. -/
def sqlType : NativeType → SqlType
  | base b => b.sqlType
  | option t => t.sqlType
  | list t => .list t.sqlType

/-- NULL of the type. -/
def empty (t : NativeType) : Value := .null t.sqlType

/-- The value that stands for a value of the type. -/
def encode : (t : NativeType) → t.Carrier → Value
  | base b, x => .scalar (b.encode x)
  | option t, some x => t.encode x
  | option t, none => t.empty
  | list t, xs => .list (xs.map t.encode) t.sqlType

/-- The name of the type in diagnostics. -/
def name : NativeType → String
  | base b => b.name
  | option t => "core::option::Option<" ++ t.name ++ ">"
  | list t => "alloc::vec::Vec<" ++ t.name ++ ">"

def isOption : NativeType → Bool
  | option _ => true
  | _ => false

/-- The value a field starts with: nothing, no items, or the one of the base type. -/
def initial : (t : NativeType) → t.Carrier
  | base b => b.initial
  | option _ => none
  | list _ => []

end NativeType

end BoundSql
