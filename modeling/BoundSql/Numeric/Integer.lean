import BoundSql.Numeric.Power

/-!
# Integers of a fixed width

The eight integer types of a database and of a program, as ranges of the integers.
-/

namespace BoundSql.Numeric

/-- Signed and unsigned integers of 8 to 64 bits. -/
inductive IntType where
  | int8
  | int16
  | int32
  | int64
  | uint8
  | uint16
  | uint32
  | uint64
  deriving DecidableEq, Repr

namespace IntType

/-- Bits of the type. -/
def width : IntType → Nat
  | int8 | uint8 => 8
  | int16 | uint16 => 16
  | int32 | uint32 => 32
  | int64 | uint64 => 64

def isSigned : IntType → Bool
  | int8 | int16 | int32 | int64 => true
  | _ => false

/-- The least number of the type. -/
def least (t : IntType) : Int := if t.isSigned then -pow2 (t.width - 1) else 0

/-- The greatest number of the type. -/
def greatest (t : IntType) : Int :=
  if t.isSigned then pow2 (t.width - 1) - 1 else pow2 t.width - 1

end IntType

/-- A number of an integer type. -/
structure Integer (t : IntType) where
  toInt : Int
  least_le : t.least ≤ toInt
  le_greatest : toInt ≤ t.greatest
  deriving DecidableEq

namespace Integer

/-- The number in the type, if it is in range. -/
def ofInt? (t : IntType) (n : Int) : Option (Integer t) :=
  if h : t.least ≤ n ∧ n ≤ t.greatest then some ⟨n, h.1, h.2⟩ else none

theorem ofInt?_toInt {t : IntType} (n : Integer t) : ofInt? t n.toInt = some n := by
  simp [ofInt?, n.least_le, n.le_greatest]

theorem ofInt?_eq_some {t : IntType} {n : Int} {m : Integer t} :
    ofInt? t n = some m ↔ m.toInt = n := by
  constructor
  · intro h
    simp only [ofInt?] at h
    split at h
    · simp only [Option.some.injEq] at h
      subst h
      rfl
    · simp at h
  · rintro rfl
    exact ofInt?_toInt m

/-- The number after this one.  The greatest of the type is followed by the least. -/
def next {t : IntType} (n : Integer t) : Integer t :=
  if h : n.toInt < t.greatest then ⟨n.toInt + 1, Int.le_add_one n.least_le, h⟩
  else ⟨t.least, Int.le_refl _, Int.le_trans n.least_le n.le_greatest⟩

/-- Numbers with a sign are counted on in two's complement. -/
theorem toInt_next {t : IntType} (ht : t.isSigned = true) (n : Integer t) :
    n.next.toInt = (n.toInt + 1).bmod (pow2 t.width) := by
  have hwidth : pow2 t.width = 2 * pow2 (t.width - 1) := by cases t <;> rfl
  have hpos : 0 < pow2 (t.width - 1) := Nat.two_pow_pos _
  have hleast : t.least = -pow2 (t.width - 1) := if_pos ht
  have hgreatest : t.greatest = pow2 (t.width - 1) - 1 := if_pos ht
  have hbelow := n.next.least_le
  have habove := n.next.le_greatest
  refine ((Int.bmod_eq_iff (by omega)).mpr ⟨by omega, by omega, ?_⟩).symm
  by_cases h : n.toInt < t.greatest
  · simp [next, h]
  · have hlast : n.toInt = t.greatest := Int.le_antisymm n.le_greatest (Int.not_lt.mp h)
    have hround : n.next.toInt - (n.toInt + 1) = -(pow2 t.width) := by
      simp only [next, h, dite_false]
      omega
    rw [hround]
    exact Int.dvd_neg.mpr (Int.dvd_refl _)

end Integer

end BoundSql.Numeric
