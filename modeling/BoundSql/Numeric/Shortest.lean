import BoundSql.Numeric.Binary
import BoundSql.Numeric.Digits

/-!
# The shortest decimal text of a binary number

Among the decimals that round to a binary number, the text takes one with the fewest digits and of
those the nearest, from the middle the larger one.  The search is exact: the number is
`4 m * 2 ^ (q - 2)`, the reals that round to it reach `2` of these quarters to either side, `1`
below a power of two, and their ends belong to them when `m` is even.  On the grid of decimals with
`n` digits only the two neighbours of the number need a look.
-/

namespace BoundSql.Numeric

/-- A decimal numeral: `coefficient * 10 ^ exponent`. -/
structure Numeral where
  coefficient : Nat
  exponent : Int
  deriving DecidableEq, Repr

namespace Numeral

/-- Moves zeros at the end of the coefficient, at most `fuel` of them, to the exponent. -/
def dropZeros : Nat → Numeral → Numeral
  | 0, d => d
  | fuel + 1, d =>
    if d.coefficient % 10 = 0 then dropZeros fuel ⟨d.coefficient / 10, d.exponent + 1⟩ else d

/-- Power of ten of the first digit. -/
def leadingExponent (d : Numeral) : Int := d.exponent + (digits d.coefficient).length - 1

end Numeral

/-- A positive number `quarters * num / den` beside the numbers that round to it: those from
`quarters - below` to `quarters + 2`, the ends among them if `closed`. -/
structure Rounding where
  quarters : Nat
  below : Nat
  closed : Bool
  num : Nat
  den : Nat

namespace Rounding

/-- The numbers that round to a finite number other than zero. -/
def ofBinary {t : FloatType} (x : Binary t) : Rounding where
  quarters := 4 * x.mantissa
  below := if x.mantissa = pow2 t.fractionBits ∧ t.leastExponent < x.exponent then 1 else 2
  closed := x.mantissa % 2 == 0
  num := pow2 (x.exponent - 2).toNat
  den := pow2 (2 - x.exponent).toNat

/-- The greatest power of ten that is not beyond the number. -/
def decade (r : Rounding) : Int :=
  let n := r.quarters * r.num
  if r.den ≤ n then (digits (n / r.den)).length - 1
  else
    let gap := (digits r.den).length - (digits n).length
    if r.den ≤ n * pow10 gap then -gap else -(gap + 1)

/-- The numeral on the grid of step `10 ^ k` that rounds to the number, if there is one. -/
def onGrid? (r : Rounding) (k : Int) : Option Numeral :=
  let p := r.num * pow10 (-k).toNat
  let q := r.den * pow10 k.toNat
  let value := r.quarters * p
  let low := (r.quarters - r.below) * p
  let high := (r.quarters + 2) * p
  let down := value / q
  let up := down + 1
  let downHits := if r.closed then decide (low ≤ down * q) else decide (low < down * q)
  let upHits := if r.closed then decide (up * q ≤ high) else decide (up * q < high)
  match downHits, upHits with
  | false, false => none
  | true, false => some ⟨down, k⟩
  | false, true => some ⟨up, k⟩
  | true, true => some ⟨if value - down * q < up * q - value then down else up, k⟩

/-- The numeral with the fewest digits, at least `n` and fewer than `n + fuel`. -/
def fewest (r : Rounding) (n : Nat) : Nat → Numeral
  | 0 => ⟨0, 0⟩
  | fuel + 1 =>
    match r.onGrid? (r.decade - n + 1) with
    | some d => d.dropZeros 20
    | none => r.fewest (n + 1) fuel

end Rounding

/-- The shortest numeral that reads back as a finite number.  Seventeen digits are enough for
either format. -/
def Binary.shortest {t : FloatType} (x : Binary t) : Numeral :=
  if x.isZero then ⟨0, 0⟩ else (Rounding.ofBinary x).fewest 1 17

/-- How a number is laid out: what follows a whole number, and for which powers of ten of the
first digit the digits stand in place. -/
structure FloatLayout where
  wholeTail : String
  inPlace : Int → Bool

namespace FloatLayout

/-- As a diagnostic shows it: a whole number has a zero after the point, and only numbers from
`10 ^ -4` to below `10 ^ 16` are written in place. -/
def diagnostic : FloatLayout := ⟨".0", fun e => decide (-4 ≤ e) && decide (e < 16)⟩

/-- As plain text: always in place, with no more digits than needed. -/
def plain : FloatLayout := ⟨"", fun _ => true⟩

end FloatLayout

/-- The digits of a numeral in place. -/
def Numeral.inPlace (d : Numeral) (wholeTail : String) : String :=
  let ds := digits d.coefficient
  if 0 ≤ d.exponent then
    String.ofList (ds ++ List.replicate d.exponent.toNat '0') ++ wholeTail
  else
    let places := (-d.exponent).toNat
    if places < ds.length then
      String.ofList (ds.take (ds.length - places) ++ '.' :: ds.drop (ds.length - places))
    else
      String.ofList ('0' :: '.' :: List.replicate (places - ds.length) '0' ++ ds)

/-- The digits of a numeral with a power of ten. -/
def Numeral.scientific (d : Numeral) : String :=
  let ds := digits d.coefficient
  let point := if ds.length ≤ 1 then [] else ['.']
  String.ofList (ds.take 1 ++ point ++ ds.drop 1) ++ "e" ++ intText d.leadingExponent

/-- The text of a number. -/
def Binary.text {t : FloatType} (layout : FloatLayout) (x : Binary t) : String :=
  if x.isNaN then "NaN"
  else
    let sign := if x.negative then "-" else ""
    if !x.isFinite then sign ++ "inf"
    else
      let d := x.shortest
      sign ++ if x.isZero || layout.inPlace d.leadingExponent then d.inPlace layout.wholeTail
        else d.scientific

end BoundSql.Numeric
