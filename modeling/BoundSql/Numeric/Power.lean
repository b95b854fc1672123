/-!
# Powers of two and ten

The two bases in which numbers are stored and written.
-/

namespace BoundSql.Numeric

/-- The power of two with the exponent `k`. -/
def pow2 (k : Nat) : Nat := Nat.pow 2 k

/-- The power of ten with the exponent `k`. -/
def pow10 (k : Nat) : Nat := Nat.pow 10 k

@[simp] theorem pow10_zero : pow10 0 = 1 := rfl

theorem pow10_succ (k : Nat) : pow10 (k + 1) = 10 * pow10 k := Nat.mul_comm _ _

theorem pow10_pos (k : Nat) : 0 < pow10 k := by
  induction k with
  | zero => decide
  | succ k ih =>
    rw [pow10_succ]
    exact Nat.mul_pos (by decide) ih

end BoundSql.Numeric
