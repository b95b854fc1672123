import BoundSql.Numeric.Power

/-!
# Decimal digits

Numbers as decimal digits: without leading zeros, with a fixed count of places, and back.
-/

namespace BoundSql.Numeric

/-- The digit of a number below ten. -/
def digit (n : Nat) : Char := Char.ofNat (48 + n % 10)

/-- The number an ASCII digit stands for. -/
def digitValue? (c : Char) : Option Nat :=
  if 48 ≤ c.toNat ∧ c.toNat ≤ 57 then some (c.toNat - 48) else none

/-- The decimal digits of a number, without leading zeros. -/
def digits (n : Nat) : List Char := Nat.toDigits 10 n

/-- The decimal text of a number. -/
def natText (n : Nat) : String := String.ofList (digits n)

/-- The decimal text of an integer. -/
def intText (n : Int) : String :=
  if n < 0 then "-" ++ natText n.natAbs else natText n.natAbs

/-- The lowest `width` decimal digits of a number. -/
def padded : Nat → Nat → List Char
  | 0, _ => []
  | width + 1, n => padded width (n / 10) ++ [digit n]

/-- At least `width` digits: zeros are put in front of a shorter number. -/
def atLeast (width n : Nat) : List Char :=
  if n < pow10 width then padded width n else digits n

/-- The number after reading further digits, or nothing when one of them is no digit. -/
def readMore? (n : Nat) : List Char → Option Nat
  | [] => some n
  | c :: cs => (digitValue? c).bind fun d => readMore? (10 * n + d) cs

/-- The number that one or more digits write. -/
def readDigits? : List Char → Option Nat
  | [] => none
  | c :: cs => readMore? 0 (c :: cs)

/-- The number of exactly `width` digits. -/
def readPadded? (width : Nat) (cs : List Char) : Option Nat :=
  if cs.length = width then readDigits? cs else none

theorem padded_length (width n : Nat) : (padded width n).length = width := by
  induction width generalizing n with
  | zero => rfl
  | succ width ih => simp [padded, ih]

theorem digitValue?_digit (n : Nat) : digitValue? (digit n) = some (n % 10) := by
  have h : n % 10 < 10 := Nat.mod_lt _ (by decide)
  have key : ∀ k, k < 10 → digitValue? (Char.ofNat (48 + k)) = some k := by decide
  exact key _ h

theorem readMore?_append (n : Nat) (xs ys : List Char) :
    readMore? n (xs ++ ys) = (readMore? n xs).bind (readMore? · ys) := by
  induction xs generalizing n with
  | nil => rfl
  | cons x xs ih =>
    simp only [List.cons_append, readMore?]
    cases digitValue? x with
    | none => rfl
    | some d => simp [ih]

/-- Padded digits read back as the number less what its places do not hold. -/
theorem readMore?_padded (width m n : Nat) :
    readMore? m (padded width n) = some (m * pow10 width + n % pow10 width) := by
  induction width generalizing n with
  | zero => simp [padded, readMore?, Nat.mod_one]
  | succ width ih =>
    rw [padded, readMore?_append, ih]
    simp only [Option.bind_some, readMore?, digitValue?_digit, Option.some.injEq]
    rw [pow10_succ, Nat.mod_mul]
    rw [Nat.mul_add, ← Nat.mul_assoc, Nat.mul_comm 10 m, Nat.mul_assoc]
    omega

theorem readPadded?_padded {width n : Nat} (hw : 0 < width) (hn : n < pow10 width) :
    readPadded? width (padded width n) = some n := by
  simp only [readPadded?, padded_length, if_pos]
  have h := readMore?_padded width 0 n
  have hl := padded_length width n
  cases hp : padded width n with
  | nil => simp [hp] at hl; omega
  | cons c cs =>
    rw [hp] at h
    simp [readDigits?, h, Nat.mod_eq_of_lt hn]

end BoundSql.Numeric
