import BoundSql.Numeric.Digits

/-!
# Dates

Dates of the proleptic Gregorian calendar from the year -9999 to the year 9999, their text
`year-month-day` with a year of four digits, and the number of the day they stand for.
-/

namespace BoundSql.Calendar

open Numeric

def isLeapYear (year : Int) : Bool :=
  year % 4 == 0 && (year % 100 != 0 || year % 400 == 0)

/-- Days of a month, none where the number is no month. -/
def daysInMonth (year : Int) (month : Nat) : Nat :=
  match month with
  | 1 | 3 | 5 | 7 | 8 | 10 | 12 => 31
  | 4 | 6 | 9 | 11 => 30
  | 2 => if isLeapYear year then 29 else 28
  | _ => 0

theorem daysInMonth_le (year : Int) (month : Nat) : daysInMonth year month ≤ 31 := by
  unfold daysInMonth
  repeat' split
  all_goals omega

theorem daysInMonth_of_gt (year : Int) {month : Nat} (h : 12 < month) :
    daysInMonth year month = 0 := by
  unfold daysInMonth
  split <;> omega

/-- A day of the calendar. -/
structure Date where
  year : Int
  month : Nat
  day : Nat
  year_ge : -9999 ≤ year
  year_le : year ≤ 9999
  day_pos : 1 ≤ day
  day_le : day ≤ daysInMonth year month
  deriving DecidableEq

namespace Date

/-- The date with these numbers, if there is one. -/
def make? (year : Int) (month day : Nat) : Option Date :=
  if h : (-9999 ≤ year ∧ year ≤ 9999) ∧ 1 ≤ day ∧ day ≤ daysInMonth year month then
    some ⟨year, month, day, h.1.1, h.1.2, h.2.1, h.2.2⟩
  else none

theorem make?_self (d : Date) : make? d.year d.month d.day = some d := by
  simp [make?, d.year_ge, d.year_le, d.day_pos, d.day_le]

/-- Months end at the twelfth. -/
theorem month_le (d : Date) : d.month ≤ 12 := by
  rcases Nat.lt_or_ge 12 d.month with h | h
  · have := daysInMonth_of_gt d.year h
    have := d.day_pos
    have := d.day_le
    omega
  · exact h

/-- The text of a date. -/
def chars (d : Date) : List Char :=
  (if d.year < 0 then ['-'] else []) ++ padded 4 d.year.natAbs
    ++ '-' :: padded 2 d.month ++ '-' :: padded 2 d.day

def text (d : Date) : String := String.ofList d.chars

/-- Reads the ten characters after the sign of the year. -/
def readUnsigned? (negative : Bool) (cs : List Char) : Option Date :=
  match cs with
  | [a, b, c, d, '-', e, f, '-', g, h] =>
    (readDigits? [a, b, c, d]).bind fun year =>
      (readDigits? [e, f]).bind fun month =>
        (readDigits? [g, h]).bind fun day =>
          make? (if negative then -(year : Int) else year) month day
  | _ => none

/-- The date the characters write. -/
def readChars? : List Char → Option Date
  | '-' :: cs => readUnsigned? true cs
  | '+' :: cs => readUnsigned? false cs
  | cs => readUnsigned? false cs

def read? (s : String) : Option Date := readChars? s.toList

/-- Days of the year before the month. -/
def daysBeforeMonth (year : Int) : Nat → Nat
  | 0 => 0
  | month + 1 => daysInMonth year month + daysBeforeMonth year month

/-- The number of the day, where the first of January of the year 1 is day 1. -/
def dayNumber (d : Date) : Int :=
  let before := d.year - 1
  365 * before + before / 4 - before / 100 + before / 400
    + daysBeforeMonth d.year d.month + d.day

end Date

end BoundSql.Calendar
