import BoundSql.Calendar.Clock
import BoundSql.Calendar.Date

/-!
# Timestamps

A date with a time of day, and the same with an offset from universal time.  Timestamps with an
offset are the same when they name the same instant.
-/

namespace BoundSql.Calendar

open Numeric

/-- A date and a time of day. -/
structure Timestamp where
  date : Date
  clock : Clock
  deriving DecidableEq

namespace Timestamp

/-- The text `date time`, without the fraction of a second. -/
def text (t : Timestamp) : String :=
  String.ofList (t.date.chars ++ ' ' :: t.clock.chars)

/-- The timestamp the characters write: a date, one space and a time. -/
def readChars? (cs : List Char) : Option Timestamp :=
  let cut := cs.length - 9
  match cs.drop cut with
  | ' ' :: time =>
    (Date.readChars? (cs.take cut)).bind fun date =>
      (Clock.readChars? time).map fun clock => ⟨date, clock⟩
  | _ => none

def read? (s : String) : Option Timestamp := readChars? s.toList

/-- The text of a timestamp in diagnostics. -/
def describe (t : Timestamp) : String := t.date.text ++ " " ++ t.clock.describe

/-- The timestamp without its fraction of a second. -/
def wholeSecond (t : Timestamp) : Timestamp := { t with clock := t.clock.wholeSecond }

/-- Nanoseconds since the midnight that starts the day with the number 0. -/
def nanoseconds (t : Timestamp) : Int :=
  (86400 * t.date.dayNumber + t.clock.seconds) * 1000000000 + t.clock.nanosecond

end Timestamp

/-- Offsets stay below twenty-six hours. -/
def offsetLimit : Nat := 26 * 3600

/-- A local timestamp and how far it is ahead of universal time, in seconds. -/
structure OffsetTimestamp where
  place : Timestamp
  offset : Int
  offset_lt : offset.natAbs < offsetLimit
  deriving DecidableEq

namespace OffsetTimestamp

/-- The timestamp at universal time. -/
def atUniversal (t : Timestamp) : OffsetTimestamp := ⟨t, 0, by decide⟩

/-- The instant, in nanoseconds. -/
def instant (t : OffsetTimestamp) : Int := t.place.nanoseconds - t.offset * 1000000000

/-- Whether two timestamps name the same instant. -/
def same (a b : OffsetTimestamp) : Bool := decide (a.instant = b.instant)

/-- The text `±hours:minutes:seconds` of the offset. -/
def offsetText (t : OffsetTimestamp) : String :=
  let n := t.offset.natAbs
  String.ofList ((if t.offset < 0 then '-' else '+') :: padded 2 (n / 3600)
    ++ ':' :: padded 2 (n / 60 % 60) ++ ':' :: padded 2 (n % 60))

/-- The text of a timestamp in diagnostics. -/
def describe (t : OffsetTimestamp) : String := t.place.describe ++ " " ++ t.offsetText

theorem same_self (a : OffsetTimestamp) : a.same a = true := by simp [same]

theorem same_comm (a b : OffsetTimestamp) : a.same b = b.same a :=
  decide_eq_decide.2 eq_comm

theorem same_trans {a b c : OffsetTimestamp} (hab : a.same b = true) (hbc : b.same c = true) :
    a.same c = true := by
  simp only [same, decide_eq_true_eq] at *
  exact hab.trans hbc

end OffsetTimestamp

end BoundSql.Calendar
