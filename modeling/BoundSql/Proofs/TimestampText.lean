import BoundSql.Calendar.Timestamp

/-!
# Timestamps as text

A date, a time and a timestamp read back from their texts, a time without the fraction of its second
(`Timestamp.read?_text`).  A year below zero has a sign in front, and a short one zeros, so that the
characters of a date tell what they are from the first one on.  Two timestamps have one text exactly
if they agree to the second (`Timestamp.text_eq_iff`).
-/

namespace BoundSql

namespace Numeric

theorem readDigits?_padded {width n : Nat} (hwidth : 0 < width) (hn : n < pow10 width) :
    readDigits? (padded width n) = some n := by
  have hread := readPadded?_padded hwidth hn
  rwa [readPadded?, if_pos (padded_length width n)] at hread

theorem digit_ne {c : Char} (hc : digitValue? c = none) (n : Nat) : digit n ≠ c := by
  rintro rfl
  rw [digitValue?_digit] at hc
  cases hc

end Numeric

namespace Calendar

open Numeric

/-! ### Times -/

namespace Clock

variable (c : Clock)

theorem make?_wholeSecond : make? c.hour c.minute c.second 0 = some c.wholeSecond := by
  simp [make?, wholeSecond, c.hour_lt, c.minute_lt, c.second_lt]

theorem length_chars : c.chars.length = 8 := by simp [chars, padded_length]

theorem readChars?_chars : readChars? c.chars = some c.wholeSecond := by
  have hhour : readDigits? (padded 2 c.hour) = some c.hour :=
    readDigits?_padded (by decide) (Nat.lt_trans c.hour_lt (by decide))
  have hminute : readDigits? (padded 2 c.minute) = some c.minute :=
    readDigits?_padded (by decide) (Nat.lt_trans c.minute_lt (by decide))
  have hsecond : readDigits? (padded 2 c.second) = some c.second :=
    readDigits?_padded (by decide) (Nat.lt_trans c.second_lt (by decide))
  calc readChars? c.chars
      = (readDigits? (padded 2 c.hour)).bind fun hour =>
          (readDigits? (padded 2 c.minute)).bind fun minute =>
            (readDigits? (padded 2 c.second)).bind fun second => make? hour minute second 0 := rfl
    _ = make? c.hour c.minute c.second 0 := by rw [hhour, hminute, hsecond]; rfl
    _ = some c.wholeSecond := c.make?_wholeSecond

end Clock

/-! ### Dates -/

namespace Date

/-- The characters of a date after the sign of the year. -/
def unsigned (year month day : Nat) : List Char :=
  padded 4 year ++ '-' :: padded 2 month ++ '-' :: padded 2 day

theorem readUnsigned?_unsigned (negative : Bool) {year month day : Nat} (hyear : year < 10000)
    (hmonth : month < 100) (hday : day < 100) :
    readUnsigned? negative (unsigned year month day) =
      make? (if negative then -(year : Int) else year) month day := by
  have hyear : readDigits? (padded 4 year) = some year := readDigits?_padded (by decide) hyear
  have hmonth : readDigits? (padded 2 month) = some month := readDigits?_padded (by decide) hmonth
  have hday : readDigits? (padded 2 day) = some day := readDigits?_padded (by decide) hday
  calc readUnsigned? negative (unsigned year month day)
      = (readDigits? (padded 4 year)).bind fun year =>
          (readDigits? (padded 2 month)).bind fun month =>
            (readDigits? (padded 2 day)).bind fun day =>
              make? (if negative then -(year : Int) else year) month day := rfl
    _ = make? (if negative then -(year : Int) else year) month day := by
        rw [hyear, hmonth, hday]
        rfl

/-- A year without a sign starts with a digit. -/
theorem readChars?_unsigned (year month day : Nat) :
    readChars? (unsigned year month day) = readUnsigned? false (unsigned year month day) := by
  have hminus : digit (year / 10 / 10 / 10) ≠ '-' := digit_ne rfl _
  have hplus : digit (year / 10 / 10 / 10) ≠ '+' := digit_ne rfl _
  obtain ⟨rest, hrest⟩ : ∃ rest, unsigned year month day = digit (year / 10 / 10 / 10) :: rest :=
    ⟨_, rfl⟩
  rw [hrest]
  unfold readChars?
  split
  · next heq => exact absurd (List.cons.inj heq).1 hminus
  · next heq => exact absurd (List.cons.inj heq).1 hplus
  · rfl

variable (d : Date)

theorem readChars?_chars : readChars? d.chars = some d := by
  have hlow := d.year_ge
  have hhigh := d.year_le
  have hmonth : d.month < 100 := Nat.lt_of_le_of_lt d.month_le (by decide)
  have hday : d.day < 100 :=
    Nat.lt_of_le_of_lt (Nat.le_trans d.day_le (daysInMonth_le _ _)) (by decide)
  by_cases hneg : d.year < 0
  · have hchars : d.chars = '-' :: unsigned d.year.natAbs d.month d.day := by
      rw [chars, if_pos hneg]
      rfl
    have hyear : -(d.year.natAbs : Int) = d.year := by omega
    calc readChars? d.chars
        = readUnsigned? true (unsigned d.year.natAbs d.month d.day) := by rw [hchars]; rfl
      _ = make? (-(d.year.natAbs : Int)) d.month d.day :=
          readUnsigned?_unsigned true (by omega) hmonth hday
      _ = some d := by rw [hyear, make?_self]
  · have hchars : d.chars = unsigned d.year.natAbs d.month d.day := by
      rw [chars, if_neg hneg]
      rfl
    have hyear : (d.year.natAbs : Int) = d.year := by omega
    calc readChars? d.chars
        = readUnsigned? false (unsigned d.year.natAbs d.month d.day) := by
          rw [hchars, readChars?_unsigned]
      _ = make? d.year.natAbs d.month d.day :=
          readUnsigned?_unsigned false (by omega) hmonth hday
      _ = some d := by rw [hyear, make?_self]

theorem chars_injective : Function.Injective chars := by
  intro a b h
  have hread := a.readChars?_chars
  rw [h, b.readChars?_chars] at hread
  exact (Option.some.inj hread).symm

end Date

/-! ### Timestamps -/

namespace Timestamp

variable (t : Timestamp)

theorem read?_text : read? t.text = some t.wholeSecond := by
  have hcut : (t.date.chars ++ ' ' :: t.clock.chars).length - 9 = t.date.chars.length := by
    simp [Clock.length_chars]
  unfold read? text readChars?
  rw [String.toList_ofList, hcut]
  simp only [List.drop_left, List.take_left, Date.readChars?_chars, Clock.readChars?_chars]
  rfl

theorem text_wholeSecond : t.wholeSecond.text = t.text := rfl

/-- The text of a timestamp tells everything but the fraction of its second. -/
theorem text_eq_iff {a b : Timestamp} : a.text = b.text ↔ a.wholeSecond = b.wholeSecond := by
  constructor
  · intro h
    have hread := a.read?_text
    rw [h, b.read?_text] at hread
    exact (Option.some.inj hread).symm
  · intro h
    rw [← text_wholeSecond, h, text_wholeSecond]

end Timestamp

end Calendar

end BoundSql
