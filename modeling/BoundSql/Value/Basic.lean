import BoundSql.Calendar.Timestamp
import BoundSql.Numeric.Decimal
import BoundSql.Numeric.Integer
import BoundSql.Uuid

/-!
# Values

What is bound to the parameters of a statement and read back from its rows: NULL of a type, a
scalar, or a list together with the type of its items.  A NULL still knows its type, unless that
is `SqlType.unknown`.

Values are the same (`Value.same`) when they are of one type and say the same; decimals are
compared as numbers, timestamps with an offset as instants and binary numbers as IEEE 754 has it,
and the declared places of a decimal do not count.
-/

namespace BoundSql

open Numeric Calendar

/-- The type of a value. -/
inductive SqlType where
  | unknown
  | boolean
  | integer (t : IntType)
  | binary (t : FloatType)
  | decimal (precision scale : Nat)
  | varchar
  | blob
  | date
  | time
  | timestamp
  | offsetTimestamp
  | uuid
  | list (item : SqlType)
  deriving DecidableEq, Repr

namespace SqlType

/-- The name of the type in statements and diagnostics. -/
def name : SqlType → String
  | unknown => "NULL"
  | boolean => "BOOLEAN"
  | integer .int8 => "TINYINT"
  | integer .int16 => "SMALLINT"
  | integer .int32 => "INTEGER"
  | integer .int64 => "BIGINT"
  | integer .uint8 => "UTINYINT"
  | integer .uint16 => "USMALLINT"
  | integer .uint32 => "UINTEGER"
  | integer .uint64 => "UBIGINT"
  | binary .single => "FLOAT"
  | binary .double => "DOUBLE"
  | decimal .. => "DECIMAL"
  | varchar => "VARCHAR"
  | blob => "BLOB"
  | date => "DATE"
  | time => "TIME"
  | timestamp => "TIMESTAMP"
  | offsetTimestamp => "TIMESTAMPTZ"
  | uuid => "UUID"
  | list _ => "LIST"

/-- Whether NULLs of two types are the same value: the types agree, or both are decimal. -/
def sameNull : SqlType → SqlType → Bool
  | decimal .., decimal .. => true
  | s, t => decide (s = t)

end SqlType

/-- A value that is neither NULL nor a list. -/
inductive Scalar where
  | boolean (b : Bool)
  | integer (t : IntType) (n : Integer t)
  | binary (t : FloatType) (x : Binary t)
  | decimal (d : Decimal) (precision scale : Nat)
  | varchar (s : String)
  | blob (bytes : List UInt8)
  | date (d : Date)
  | time (c : Clock)
  | timestamp (t : Timestamp)
  | offsetTimestamp (t : OffsetTimestamp)
  | uuid (u : Uuid)
  deriving DecidableEq

namespace Scalar

def type : Scalar → SqlType
  | boolean _ => .boolean
  | integer t _ => .integer t
  | binary t _ => .binary t
  | decimal _ precision scale => .decimal precision scale
  | varchar _ => .varchar
  | blob _ => .blob
  | date _ => .date
  | time _ => .time
  | timestamp _ => .timestamp
  | offsetTimestamp _ => .offsetTimestamp
  | uuid _ => .uuid

/-- Whether two scalars are of one type and say the same. -/
def same : Scalar → Scalar → Bool
  | binary .single x, binary .single y => x.same y
  | binary .double x, binary .double y => x.same y
  | decimal a _ _, decimal b _ _ => a.same b
  | offsetTimestamp a, offsetTimestamp b => a.same b
  | a, b => decide (a = b)

end Scalar

/-- A value of a statement or a row. -/
inductive Value where
  | null (type : SqlType)
  | scalar (s : Scalar)
  | list (items : List Value) (item : SqlType)

namespace Value

instance : Inhabited Value := ⟨null .unknown⟩

mutual

/-- Whether two values are equal, the types and places they declare included. -/
def decEq : (v w : Value) → Decidable (v = w)
  | null s, null t => decidable_of_iff (s = t) (by simp)
  | scalar a, scalar b => decidable_of_iff (a = b) (by simp)
  | list xs s, list ys t =>
    match decEqItems xs ys with
    | isTrue h => decidable_of_iff (s = t) (by simp [h])
    | isFalse h => isFalse (by simp [h])
  | null _, scalar _ | null _, list .. | scalar _, null _ | scalar _, list .. | list .., null _
  | list .., scalar _ => isFalse (by simp)

/-- Whether two lists have equal items in the same order. -/
def decEqItems : (xs ys : List Value) → Decidable (xs = ys)
  | [], [] => isTrue rfl
  | x :: xs, y :: ys =>
    match decEq x y with
    | isTrue h =>
      match decEqItems xs ys with
      | isTrue hs => isTrue (by rw [h, hs])
      | isFalse hs => isFalse (by simp [hs])
    | isFalse h => isFalse (by simp [h])
  | [], _ :: _ | _ :: _, [] => isFalse (by simp)

end

instance : DecidableEq Value := decEq

/-- NULL of unknown type. -/
def unknown : Value := null .unknown

/-- A text. -/
def varchar (s : String) : Value := scalar (.varchar s)

/-- The declared type of the value. -/
def type : Value → SqlType
  | null t => t
  | scalar s => s.type
  | list _ item => .list item

/-- NULL of the type of the value. -/
def asType (v : Value) : Value := null v.type

def isNull : Value → Bool
  | null _ => true
  | _ => false

/-- Whether two values have the same declared type. -/
def sameType (v w : Value) : Bool := decide (v.type = w.type)

/-- The number of an integer of any width. -/
def asInteger : Value → Option Int
  | scalar (.integer _ n) => some n.toInt
  | _ => none

mutual

/-- Whether two values are of one type and say the same. -/
def same : Value → Value → Bool
  | null s, null t => s.sameNull t
  | scalar a, scalar b => a.same b
  | list xs s, list ys t => sameItems xs ys && decide (s = t)
  | _, _ => false

/-- Whether two lists have the same items in the same order. -/
def sameItems : List Value → List Value → Bool
  | [], [] => true
  | x :: xs, y :: ys => same x y && sameItems xs ys
  | _, _ => false

end

end Value

end BoundSql
