import BoundSql.Numeric.Shortest

/-!
# Decimal numbers

A decimal is a sign, a coefficient of at most 96 bits and a power of ten between `1` and `10 ^ 28`
under it.  The power, the scale, is part of it: `1.0` and `1.00` are the same number and different
decimals.  So is the sign: a zero may have one, though no positional text gives it one.  Reading
keeps the zeros at the end; a digit beyond the places that fit rounds the last one.
-/

namespace BoundSql.Numeric

/-- Coefficients are smaller than this. -/
def coefficientLimit : Nat := pow2 96

/-- The most decimals a decimal has. -/
def maxScale : Nat := 28

/-- The number `coefficient / 10 ^ scale` with a sign. -/
structure Decimal where
  negative : Bool
  coefficient : Nat
  scale : Nat
  coefficient_lt : coefficient < coefficientLimit
  scale_le : scale ≤ maxScale
  deriving DecidableEq

namespace Decimal

/-- The decimal with this sign, coefficient and scale, if they fit. -/
def make? (negative : Bool) (coefficient scale : Nat) : Option Decimal :=
  if h : coefficient < coefficientLimit ∧ scale ≤ maxScale then
    some ⟨negative, coefficient, scale, h.1, h.2⟩
  else none

/-- The decimal of an integer over a power of ten, if they fit. -/
def ofInt? (n : Int) (scale : Nat) : Option Decimal := make? (decide (n < 0)) n.natAbs scale

/-- The coefficient with the sign. -/
def signed (d : Decimal) : Int := if d.negative then -(d.coefficient : Int) else d.coefficient

/-- Whether two decimals are the same number. -/
def same (a b : Decimal) : Bool := decide (a.signed * pow10 b.scale = b.signed * pow10 a.scale)

/-- The text of a decimal, with as many decimals as its scale says. -/
def text (d : Decimal) : String :=
  let ds := atLeast (d.scale + 1) d.coefficient
  let whole := ds.take (ds.length - d.scale)
  let tail := ds.drop (ds.length - d.scale)
  (if d.negative then "-" else "")
    ++ String.ofList (if d.scale = 0 then whole else whole ++ '.' :: tail)

/-! ### Reading -/

/-- From this coefficient on, one more digit is beyond a word of 64 bits. -/
def wordLimit : Nat := pow2 64 / 10 - 255

/-- Rounds at a digit that has no place left: from five on it raises the last digit, and where the
coefficient then no longer fits its last digit is given up. -/
def roundAway (coefficient scale next : Nat) : Option (Nat × Nat) :=
  if next < 5 then some (coefficient, scale)
  else if coefficient + 1 < coefficientLimit then some (coefficient + 1, scale)
  else if scale = 0 then none
  else some ((coefficient + 5) / 10, scale - 1)

/-- Ends reading where no place is left.  What follows may be digits and underscores only, and the
first digit `next` of it rounds. -/
def finish (coefficient scale next : Nat) (cs : List Char) : Option (Nat × Nat) :=
  if cs.all fun c => c == '_' || (digitValue? c).isSome then roundAway coefficient scale next
  else none

/-- The digit that rounds after the last place, zero if there is none.  Underscores before it are
passed over once the coefficient has outgrown a word; before that one of them counts as zero. -/
def nextDigit (coefficient : Nat) (cs : List Char) : Nat :=
  let cs := if coefficient / 10 < wordLimit then cs else cs.dropWhile (· == '_')
  (cs.head?.bind digitValue?).getD 0

/-- Reads on after the sign.  `point` tells whether the point was read and `anyDigit` whether a
digit was; an underscore may stand anywhere after the first digit. -/
def readFrom (point anyDigit : Bool) (coefficient scale : Nat) : List Char → Option (Nat × Nat)
  | [] => if anyDigit then some (coefficient, scale) else none
  | c :: cs =>
    if point && decide (maxScale ≤ scale) then
      finish coefficient scale (nextDigit coefficient (c :: cs)) (c :: cs)
    else
      match digitValue? c with
      | some d =>
        let next := coefficient * 10 + d
        if next < coefficientLimit then readFrom point true next (if point then scale + 1 else 0) cs
        else if point then finish coefficient scale d cs
        else none
      | none =>
        if c = '.' && !point then readFrom true anyDigit coefficient scale cs
        else if c = '_' && anyDigit then readFrom point anyDigit coefficient scale cs
        else none

/-- The decimal that a sign and what follows it write.  A zero has no sign. -/
def readUnsigned? (negative : Bool) (cs : List Char) : Option Decimal :=
  (readFrom false false 0 0 cs).bind fun (coefficient, scale) =>
    make? (negative && coefficient != 0) coefficient scale

/-- The decimal a positional text writes: an optional sign, then digits around at most one
point. -/
def readPositional? : List Char → Option Decimal
  | '-' :: cs => readUnsigned? true cs
  | '+' :: cs => readUnsigned? false cs
  | cs => readUnsigned? false cs

/-- The exponent of a scientific text: digits after an optional plus, below `2 ^ 32`. -/
def readExponent? (cs : List Char) : Option Nat :=
  let cs := match cs with
    | '+' :: rest => rest
    | _ => cs
  (readDigits? cs).filter (· < pow2 32)

/-- The decimal with `places` of its decimals left.  Half a unit is rounded away from zero; what
is rounded to zero keeps its sign. -/
def rounded? (d : Decimal) (places : Nat) : Option Decimal :=
  if d.scale ≤ places then some d
  else
    let cut := pow10 (d.scale - places)
    make? d.negative ((d.coefficient + cut / 2) / cut) places

/-- The number times `10 ^ e`.  A zero that has to grow loses its sign. -/
def shiftUp? (d : Decimal) (e : Nat) : Option Decimal :=
  if e ≤ d.scale then make? d.negative d.coefficient (d.scale - e)
  else if e ≤ maxScale then
    make? (d.negative && d.coefficient != 0) (d.coefficient * pow10 (e - d.scale)) 0
  else none

/-- The number divided by `10 ^ e`, rounded to the decimals that fit. -/
def shiftDown? (d : Decimal) (e : Nat) : Option Decimal :=
  if e ≤ maxScale then
    (d.rounded? (maxScale - e)).bind fun r => make? r.negative r.coefficient (r.scale + e)
  else none

/-- The decimal a scientific text writes: a positional text, `e` or `E`, and an exponent. -/
def readScientific? (cs : List Char) : Option Decimal :=
  let isMark := fun c => c == 'e' || c == 'E'
  let base := cs.takeWhile (!isMark ·)
  match cs.dropWhile (!isMark ·) with
  | _ :: '-' :: e => (readPositional? base).bind fun d => (readExponent? e).bind (d.shiftDown? ·)
  | _ :: e => (readPositional? base).bind fun d => (readExponent? e).bind (d.shiftUp? ·)
  | [] => none

/-- The decimal a text writes. -/
def read? (s : String) : Option Decimal :=
  (readPositional? s.toList).orElse fun _ => readScientific? s.toList

/-! ### From other numbers -/

/-- The shortest decimal of a finite binary number, where it fits.  A zero keeps its sign. -/
def ofBinary? {t : FloatType} (x : Binary t) : Option Decimal :=
  if x.isFinite then
    let d := x.shortest
    if 0 ≤ d.exponent then make? x.negative (d.coefficient * pow10 d.exponent.toNat) 0
    else make? x.negative d.coefficient (-d.exponent).toNat
  else none

theorem same_comm (a b : Decimal) : a.same b = b.same a := by
  unfold same
  exact decide_eq_decide.2 eq_comm

theorem same_self (a : Decimal) : a.same a = true := by simp [same]

theorem same_trans {a b c : Decimal} (hab : a.same b = true) (hbc : b.same c = true) :
    a.same c = true := by
  simp only [same, decide_eq_true_eq] at *
  have hb : (pow10 b.scale : Int) ≠ 0 := Int.natCast_ne_zero.2 (Nat.ne_of_gt (pow10_pos _))
  apply Int.eq_of_mul_eq_mul_right hb
  calc a.signed * pow10 c.scale * pow10 b.scale
      = a.signed * pow10 b.scale * pow10 c.scale := Int.mul_right_comm ..
    _ = b.signed * pow10 c.scale * pow10 a.scale := by rw [hab, Int.mul_right_comm]
    _ = c.signed * pow10 a.scale * pow10 b.scale := by rw [hbc, Int.mul_right_comm]

end Decimal

end BoundSql.Numeric
