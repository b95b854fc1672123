import BoundSql.Value.Basic

/-!
# Values that are the same as themselves

A NaN is the same number as nothing, itself included.  So a value is the same as itself exactly if
no NaN is in it, however deep in nested lists (`Value.same_self`), and what is the same as some
value has no NaN in it (`Value.holdsNaN_of_same`).
-/

namespace BoundSql

theorem SqlType.sameNull_self (t : SqlType) : t.sameNull t = true := by
  cases t <;> simp [sameNull]

namespace Scalar

def isNaN : Scalar → Bool
  | binary _ x => x.isNaN
  | _ => false

theorem same_self (a : Scalar) : a.same a = !a.isNaN := by
  cases a with
  | binary t x => cases t <;> exact x.same_self
  | decimal d _ _ => exact d.same_self
  | offsetTimestamp t => exact t.same_self
  | _ => simp [same, isNaN]

theorem isNaN_of_same {a b : Scalar} (h : a.same b = true) : b.isNaN = false := by
  cases b with
  | binary t y =>
    cases a with
    | binary s x =>
      cases s <;> cases t <;> simp_all [same, Numeric.Binary.same, isNaN]
    | _ => simp [same] at h
  | _ => rfl

end Scalar

namespace Value

mutual

/-- Whether the value is a NaN or a list with one in it. -/
def holdsNaN : Value → Bool
  | null _ => false
  | scalar a => a.isNaN
  | list items _ => anyHoldsNaN items

/-- Whether one of the values is a NaN or a list with one in it. -/
def anyHoldsNaN : List Value → Bool
  | [] => false
  | v :: more => v.holdsNaN || anyHoldsNaN more

end

mutual

theorem same_self : (v : Value) → v.same v = !v.holdsNaN
  | null t => t.sameNull_self
  | scalar a => a.same_self
  | list items _ => by simp [same, holdsNaN, sameItems_self items]

theorem sameItems_self : (items : List Value) → sameItems items items = !anyHoldsNaN items
  | [] => rfl
  | v :: more => by
    simp only [sameItems, anyHoldsNaN, same_self v, sameItems_self more, Bool.not_or]

end

mutual

theorem holdsNaN_of_same : {v w : Value} → v.same w = true → w.holdsNaN = false
  | _, null _, _ => rfl
  | scalar _, scalar _, h => Scalar.isNaN_of_same h
  | list _ _, list _ _, h => anyHoldsNaN_of_sameItems (Bool.and_eq_true_iff.mp h).1
  | null _, scalar _, h | null _, list _ _, h | scalar _, list _ _, h | list _ _, scalar _, h => by
    simp [same] at h

theorem anyHoldsNaN_of_sameItems :
    {xs ys : List Value} → sameItems xs ys = true → anyHoldsNaN ys = false
  | _, [], _ => rfl
  | [], _ :: _, h => by simp [sameItems] at h
  | _ :: _, _ :: _, h => by
    obtain ⟨hfirst, hmore⟩ := Bool.and_eq_true_iff.mp h
    simp only [anyHoldsNaN, holdsNaN_of_same hfirst, anyHoldsNaN_of_sameItems hmore, Bool.or_self]

end

end Value

end BoundSql
