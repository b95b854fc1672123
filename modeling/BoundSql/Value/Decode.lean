import BoundSql.Fault

/-!
# Decoding values

Reading a value as a value of a program's type.  Decoding is lenient where databases differ in how
they store a type: an integer of any width decodes as any integer type that holds its number, as
`0` and `1` for booleans, and as a binary or decimal number; dates, times, timestamps, uuids and
decimals decode from their text; a timestamp decodes as its date, and timestamps with and without
offset as each other.
-/

namespace BoundSql

open Numeric Calendar

/-- The fault of a value that is none of the type. -/
def misfit (type : NativeType) (v : Value) : Fault :=
  .decoding (if v.isNull then .unexpectedNull type else .mismatch v type)

/-- What was read from a text. -/
def readOr {α : Type} (type : BaseType) (text : String) : Option α → Except Fault α
  | some x => .ok x
  | none => .error (.decoding (.unreadable text type))

namespace BaseType

/-- The integer that a value of the type itself holds. -/
def integerOf? (t : IntType) : Value → Option (Integer t)
  | .scalar (.integer s n) => if h : s = t then some (h ▸ n) else none
  | _ => none

/-- The integer a value holds, in the type: as it stands in a value of the type, and otherwise if
the type has its number. -/
def decodeInteger (t : IntType) (v : Value) : Except Fault (Integer t) :=
  match integerOf? t v with
  | some n => .ok n
  | none =>
    match v.asInteger with
    | some n =>
      match Integer.ofInt? t n with
      | some m => .ok m
      | none => .error (.decoding (.outOfRange n t))
    | none => .error (misfit (.base (.integer t)) v)

/-- The truth value of a boolean or of the numbers `0` and `1`. -/
def decodeBoolean (v : Value) : Except Fault Bool :=
  match v with
  | .scalar (.boolean b) => .ok b
  | v =>
    match v.asInteger with
    | some 0 => .ok false
    | some 1 => .ok true
    | _ => .error (misfit (.base .boolean) v)

/-- The number of the format nearest to the one that a value holds. -/
def decodeBinary (t : FloatType) (v : Value) : Except Fault (Binary t) :=
  match v with
  | .scalar (.binary s x) => .ok (if h : s = t then h ▸ x else x.convert t)
  | v =>
    match v.asInteger with
    | some n => .ok (Binary.ofInt t n)
    | none => .error (misfit (.base (.binary t)) v)

/-- The decimal of a number or a text. -/
def decodeDecimal (v : Value) : Except Fault Decimal :=
  match v with
  | .scalar (.decimal d _ _) => .ok d
  | .scalar (.binary t x) =>
    match Decimal.ofBinary? x with
    | some d => .ok d
    | none => .error (.decoding (.notDecimal t x))
  | .scalar (.varchar s) => readOr .decimal s (Decimal.read? s)
  | v =>
    match v.asInteger.bind (Decimal.ofInt? · 0) with
    | some d => .ok d
    | none => .error (misfit (.base .decimal) v)

/-- Reads a value as a value of the type. -/
def decode (b : BaseType) (v : Value) : Except Fault b.Carrier :=
  match b with
  | boolean => decodeBoolean v
  | integer t => decodeInteger t v
  | binary t => decodeBinary t v
  | decimal => decodeDecimal v
  | text =>
    match v with
    | .scalar (.varchar s) => .ok s
    | v => .error (misfit (.base text) v)
  | bytes =>
    match v with
    | .scalar (.blob bs) => .ok bs
    | v => .error (misfit (.base bytes) v)
  | date =>
    match v with
    | .scalar (.date d) => .ok d
    | .scalar (.timestamp t) => .ok t.date
    | .scalar (.varchar s) => readOr date s (Date.read? s)
    | v => .error (misfit (.base date) v)
  | time =>
    match v with
    | .scalar (.time c) => .ok c
    | .scalar (.varchar s) => readOr time s (Clock.read? s)
    | v => .error (misfit (.base time) v)
  | timestamp =>
    match v with
    | .scalar (.timestamp t) => .ok t
    | .scalar (.offsetTimestamp t) => .ok t.place
    | .scalar (.varchar s) => readOr timestamp s (Timestamp.read? s)
    | v => .error (misfit (.base timestamp) v)
  | offsetTimestamp =>
    match v with
    | .scalar (.offsetTimestamp t) => .ok t
    | .scalar (.timestamp t) => .ok (.atUniversal t)
    | v => .error (misfit (.base offsetTimestamp) v)
  | uuid =>
    match v with
    | .scalar (.uuid u) => .ok u
    | .scalar (.varchar s) => readOr uuid s (Uuid.read? s)
    | v => .error (misfit (.base uuid) v)

end BaseType

/-- Runs a reader over a list; the first fault wins. -/
def decodeEach {α β : Type} (f : α → Except Fault β) : List α → Except Fault (List β)
  | [] => .ok []
  | x :: xs =>
    match f x with
    | .error e => .error e
    | .ok y => (decodeEach f xs).map (y :: ·)

namespace NativeType

/-- Reads a value as a value of the type: any NULL is a missing option, and a list decodes item by
item. -/
def decode : (t : NativeType) → Value → Except Fault t.Carrier
  | base b, v => b.decode v
  | option t, v => if v.isNull then .ok none else (t.decode v).map some
  | list t, v =>
    match v with
    | .list items _ => decodeEach t.decode items
    | v => .error (misfit (list t) v)

end NativeType

end BoundSql
