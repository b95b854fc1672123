import BoundSql.Numeric.Digits

/-!
# Times of day

A time of day to the nanosecond, its text `hour:minute:second` and the text that diagnostics show,
where the hour has no leading zero and the fraction no zeros at its end.
-/

namespace BoundSql.Calendar

open Numeric

/-- A time of day. -/
structure Clock where
  hour : Nat
  minute : Nat
  second : Nat
  nanosecond : Nat
  hour_lt : hour < 24
  minute_lt : minute < 60
  second_lt : second < 60
  nanosecond_lt : nanosecond < 1000000000
  deriving DecidableEq

namespace Clock

/-- The time with these numbers, if there is one. -/
def make? (hour minute second nanosecond : Nat) : Option Clock :=
  if h : (hour < 24 ∧ minute < 60) ∧ second < 60 ∧ nanosecond < 1000000000 then
    some ⟨hour, minute, second, nanosecond, h.1.1, h.1.2, h.2.1, h.2.2⟩
  else none

/-- The start of the day. -/
def midnight : Clock := ⟨0, 0, 0, 0, by decide, by decide, by decide, by decide⟩

/-- The time without its fraction of a second. -/
def wholeSecond (c : Clock) : Clock := { c with nanosecond := 0, nanosecond_lt := by decide }

/-- Seconds since midnight, without the fraction. -/
def seconds (c : Clock) : Nat := 3600 * c.hour + 60 * c.minute + c.second

/-- The text of a time without its fraction. -/
def chars (c : Clock) : List Char :=
  padded 2 c.hour ++ ':' :: padded 2 c.minute ++ ':' :: padded 2 c.second

/-- The time the characters write, to the second. -/
def readChars? (cs : List Char) : Option Clock :=
  match cs with
  | [a, b, ':', c, d, ':', e, f] =>
    (readDigits? [a, b]).bind fun hour =>
      (readDigits? [c, d]).bind fun minute =>
        (readDigits? [e, f]).bind fun second => make? hour minute second 0
  | _ => none

def read? (s : String) : Option Clock := readChars? s.toList

/-- The digits of the fraction without the zeros at the end, but at least one. -/
def fractionDigits (c : Clock) : List Char :=
  match ((padded 9 c.nanosecond).reverse.dropWhile (· == '0')).reverse with
  | [] => ['0']
  | ds => ds

/-- The text of a time in diagnostics. -/
def describe (c : Clock) : String :=
  String.ofList (digits c.hour ++ ':' :: padded 2 c.minute ++ ':' :: padded 2 c.second
    ++ '.' :: c.fractionDigits)

end Clock

end BoundSql.Calendar
