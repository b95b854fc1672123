import BoundSql.Numeric.Power

/-!
# Binary floating point numbers

The two IEEE 754 interchange formats as bit strings.  A finite number is a mantissa times a power
of two; `nearest` rounds any such product to a format, to the nearest neighbour and from the
middle to the even one.  Two numbers are the same number when their bits agree or both are zero,
and a NaN is the same number as nothing.
-/

namespace BoundSql.Numeric

/-- The two formats. -/
inductive FloatType where
  | single
  | double
  deriving DecidableEq, Repr

namespace FloatType

/-- Bits of a number. -/
def width : FloatType → Nat
  | single => 32
  | double => 64

/-- Bits of the fraction. -/
def fractionBits : FloatType → Nat
  | single => 23
  | double => 52

/-- Power of two of the last place of the smallest numbers. -/
def leastExponent : FloatType → Int
  | single => -149
  | double => -1074

/-- Magnitude bits of infinity: every bit of the exponent is set, none of the fraction. -/
def infinity (t : FloatType) : Nat := pow2 (t.width - 1) - pow2 t.fractionBits

end FloatType

/-- A number of one of the formats. -/
structure Binary (t : FloatType) where
  bits : BitVec t.width
  deriving DecidableEq

namespace Binary

variable {t : FloatType}

/-- The bits without the sign. -/
def magnitude (x : Binary t) : Nat := x.bits.toNat % pow2 (t.width - 1)

/-- Whether the sign bit is set. -/
def negative (x : Binary t) : Bool := decide (pow2 (t.width - 1) ≤ x.bits.toNat)

def isNaN (x : Binary t) : Bool := decide (t.infinity < x.magnitude)

def isFinite (x : Binary t) : Bool := decide (x.magnitude < t.infinity)

def isZero (x : Binary t) : Bool := decide (x.magnitude = 0)

/-- Whether two numbers are the same number. -/
def same (x y : Binary t) : Bool :=
  !x.isNaN && !y.isNaN && (decide (x = y) || (x.isZero && y.isZero))

/-- The number with the given sign and magnitude bits. -/
def ofMagnitude (negative : Bool) (magnitude : Nat) : Binary t :=
  ⟨BitVec.ofNat t.width (magnitude + if negative then pow2 (t.width - 1) else 0)⟩

/-- The quiet NaN without payload. -/
def nan (t : FloatType) : Binary t := ofMagnitude false (t.infinity + pow2 (t.fractionBits - 1))

/-- A finite number is its mantissa times two to the power of its exponent. -/
def mantissa (x : Binary t) : Nat :=
  let fraction := x.magnitude % pow2 t.fractionBits
  if x.magnitude < pow2 t.fractionBits then fraction else fraction + pow2 t.fractionBits

/-- The power of two of the last place. -/
def exponent (x : Binary t) : Int :=
  t.leastExponent + ((x.magnitude / pow2 t.fractionBits - 1 : Nat) : Int)

/-- `m / 2 ^ k` rounded to the nearest number, from the middle to the even one. -/
def shiftRounded (m k : Nat) : Nat :=
  let floor := m / pow2 k
  let rest := m % pow2 k
  if 2 * rest < pow2 k then floor
  else if pow2 k < 2 * rest then floor + 1
  else floor + floor % 2

/-- The number of the format nearest to `m * 2 ^ e`, infinity beyond the largest one. -/
def nearest (t : FloatType) (negative : Bool) (m : Nat) (e : Int) : Binary t :=
  if m = 0 then ofMagnitude negative 0
  else
    let places : Int := m.log2 + 1
    let last := max (e + places - (t.fractionBits + 1)) t.leastExponent
    let kept := if last ≤ e then m * pow2 (e - last).toNat else shiftRounded m (last - e).toNat
    let bits := (last - t.leastExponent).toNat * pow2 t.fractionBits + kept
    ofMagnitude negative (min bits t.infinity)

/-- The number of the format nearest to an integer. -/
def ofInt (t : FloatType) (n : Int) : Binary t := nearest t (decide (n < 0)) n.natAbs 0

/-- The number in the other format, rounded where that one is narrower. -/
def convert (target : FloatType) (x : Binary t) : Binary target :=
  if x.isNaN then nan target
  else if x.isFinite then nearest target x.negative x.mantissa x.exponent
  else ofMagnitude x.negative target.infinity

theorem same_comm (x y : Binary t) : x.same y = y.same x := by
  unfold same
  rw [Bool.and_comm (!x.isNaN), Bool.and_comm x.isZero, decide_eq_decide.2 (eq_comm (a := x))]

theorem same_self (x : Binary t) : x.same x = !x.isNaN := by
  simp [same]

theorem same_trans {x y z : Binary t} (hxy : x.same y = true) (hyz : y.same z = true) :
    x.same z = true := by
  simp only [same, Bool.and_eq_true, Bool.or_eq_true, decide_eq_true_eq] at *
  obtain ⟨⟨hx, -⟩, hxy⟩ := hxy
  obtain ⟨⟨-, hz⟩, hyz⟩ := hyz
  refine ⟨⟨hx, hz⟩, ?_⟩
  rcases hxy with rfl | hxy
  · exact hyz
  · rcases hyz with rfl | hyz
    · exact Or.inr hxy
    · exact Or.inr ⟨hxy.1, hyz.2⟩

end Binary

end BoundSql.Numeric
