import BoundSql.Proofs.Sameness
import BoundSql.Value.Describe
import Mathlib.Data.List.Forall2

/-!
# Sameness as an equivalence

Values that are the same are of one variant, and lists that are the same hold as many items, each
the same as its counterpart, under one declared type; and so it goes on at every place in nested
lists (`Value.agree_at?`).  Sameness is symmetric and transitive: what a value is the same as is
known from its own form (`Value.same_null_iff`, `Value.same_scalar_iff`, `Value.same_list_iff`), and
nested lists need one induction each.  It is reflexive but for NaN: a value is the same as itself
exactly if there is no NaN at any place in it (`Value.same_equivalence`).
-/

namespace BoundSql

open Numeric Calendar

/-! ### Lists, item by item -/

theorem forall₂_trans {α : Type} {R : α → α → Prop} {xs ys zs : List α}
    (htrans : ∀ x ∈ xs, ∀ y z, R x y → R y z → R x z) (hxy : List.Forall₂ R xs ys)
    (hyz : List.Forall₂ R ys zs) : List.Forall₂ R xs zs := by
  induction hxy generalizing zs with
  | nil => exact hyz
  | cons hfirst hmore ih =>
    obtain ⟨hx, hxs⟩ := List.forall_mem_cons.mp htrans
    cases hyz with
    | cons hsecond hrest => exact .cons (hx _ _ hfirst hsecond) (ih hxs hrest)

theorem rel_getElem? {α : Type} {R : α → α → Prop} {xs ys : List α} (h : List.Forall₂ R xs ys)
    (i : Nat) : Option.Rel R xs[i]? ys[i]? := by
  induction h generalizing i with
  | nil => exact .none
  | cons hfirst hmore ih =>
    cases i with
    | zero => exact .some hfirst
    | succ i => exact ih i

/-! ### NULLs and scalars -/

namespace SqlType

variable {s t u : SqlType}

/-- The type of the items of a list. -/
def item? : SqlType → Option SqlType
  | list item => some item
  | _ => none

theorem sameNull_iff : s.sameNull t = true ↔ s.variant = t.variant ∧ s.item? = t.item? := by
  unfold sameNull
  split
  · simp [variant, item?]
  · next hdecimal =>
    rw [decide_eq_true_eq]
    constructor
    · rintro rfl
      exact ⟨rfl, rfl⟩
    · rintro ⟨hvariant, hitem⟩
      -- no two variants have one name, and only decimals and lists have several types to a variant
      unfold variant at hvariant
      split at hvariant <;> split at hvariant <;> simp_all [item?]
      exact absurd rfl (hdecimal _ _ _ _ rfl rfl rfl)

theorem sameNull_symm (h : s.sameNull t = true) : t.sameNull s = true := by
  obtain ⟨hvariant, hitem⟩ := sameNull_iff.mp h
  exact sameNull_iff.mpr ⟨hvariant.symm, hitem.symm⟩

theorem sameNull_trans (hst : s.sameNull t = true) (htu : t.sameNull u = true) :
    s.sameNull u = true := by
  obtain ⟨hvariant, hitem⟩ := sameNull_iff.mp hst
  obtain ⟨hvariant', hitem'⟩ := sameNull_iff.mp htu
  exact sameNull_iff.mpr ⟨hvariant.trans hvariant', hitem.trans hitem'⟩

end SqlType

namespace Scalar

variable {a b c : Scalar}

/-- The ways in which scalars are the same: as numbers, as instants, or as one and the same. -/
inductive Same : Scalar → Scalar → Prop where
  | binary {t : FloatType} {x y : Binary t} (h : x.same y = true) : Same (binary t x) (binary t y)
  | decimal {x y : Decimal} {precision scale precision' scale' : Nat} (h : x.same y = true) :
      Same (decimal x precision scale) (decimal y precision' scale')
  | offsetTimestamp {x y : OffsetTimestamp} (h : x.same y = true) :
      Same (offsetTimestamp x) (offsetTimestamp y)
  | equal {a : Scalar} (h : a.same a = true) : Same a a

theorem same_iff : a.same b = true ↔ Same a b := by
  constructor
  · intro h
    have hsame := h
    unfold same at h
    split at h
    · exact .binary h
    · exact .binary h
    · exact .decimal h
    · exact .offsetTimestamp h
    · obtain rfl := of_decide_eq_true h
      exact .equal hsame
  · intro h
    cases h with
    | @binary t _ _ h => cases t <;> exact h
    | decimal h => exact h
    | offsetTimestamp h => exact h
    | equal h => exact h

theorem Same.symm (h : Same a b) : Same b a := by
  cases h with
  | @binary _ x y h => exact .binary (by rwa [x.same_comm] at h)
  | @decimal x y _ _ _ _ h => exact .decimal (by rwa [x.same_comm] at h)
  | @offsetTimestamp x y h => exact .offsetTimestamp (by rwa [x.same_comm] at h)
  | equal h => exact .equal h

theorem Same.trans (hab : Same a b) (hbc : Same b c) : Same a c := by
  cases hab with
  | equal h => exact hbc
  | binary h =>
    cases hbc with
    | binary h' => exact .binary (Binary.same_trans h h')
    | equal h' => exact .binary h
  | decimal h =>
    cases hbc with
    | decimal h' => exact .decimal (Decimal.same_trans h h')
    | equal h' => exact .decimal h
  | offsetTimestamp h =>
    cases hbc with
    | offsetTimestamp h' => exact .offsetTimestamp (OffsetTimestamp.same_trans h h')
    | equal h' => exact .offsetTimestamp h

/-- Scalars that are the same differ in the places of a decimal at most. -/
theorem Same.sameNull_type (h : Same a b) : a.type.sameNull b.type = true := by
  cases h with
  | binary h => exact SqlType.sameNull_self _
  | decimal h => rfl
  | offsetTimestamp h => rfl
  | equal h => exact SqlType.sameNull_self _

end Scalar

namespace Value

/-- What holds of NULLs and scalars and passes from items to lists holds of every value. -/
@[elab_as_elim]
theorem nested_induction {P : Value → Prop} (v : Value) (null : ∀ t, P (null t))
    (scalar : ∀ a, P (scalar a))
    (list : ∀ items item, (∀ v ∈ items, P v) → P (list items item)) : P v :=
  @Value.rec P (fun items => ∀ v ∈ items, P v) null scalar list
    (fun _ hv => absurd hv List.not_mem_nil)
    (fun _ _ hv hmore => List.forall_mem_cons.mpr ⟨hv, hmore⟩) v

variable {u v w : Value}

/-! ### What a value is the same as -/

theorem same_null_iff {s : SqlType} :
    (null s).same w = true ↔ ∃ t, w = null t ∧ s.sameNull t = true := by
  cases w <;> simp [same]

theorem same_scalar_iff {a : Scalar} :
    (scalar a).same w = true ↔ ∃ b, w = scalar b ∧ Scalar.Same a b := by
  cases w <;> simp [same, Scalar.same_iff]

theorem sameItems_iff {xs ys : List Value} :
    sameItems xs ys = true ↔ List.Forall₂ (fun x y => x.same y = true) xs ys := by
  induction xs generalizing ys with
  | nil => cases ys <;> simp [sameItems]
  | cons x xs ih => cases ys <;> simp [sameItems, ih]

theorem same_list_iff {xs : List Value} {item : SqlType} :
    (list xs item).same w = true ↔
      ∃ ys, w = list ys item ∧ List.Forall₂ (fun x y => x.same y = true) xs ys := by
  cases w with
  | null t => simp [same]
  | scalar a => simp [same]
  | list ys item' => simp [same, sameItems_iff, eq_comm (a := item), and_comm]

/-! ### The laws of an equivalence -/

theorem same_symm (h : v.same w = true) : w.same v = true := by
  induction v using nested_induction generalizing w with
  | null s =>
    obtain ⟨t, rfl, ht⟩ := same_null_iff.mp h
    exact same_null_iff.mpr ⟨s, rfl, SqlType.sameNull_symm ht⟩
  | scalar a =>
    obtain ⟨b, rfl, hb⟩ := same_scalar_iff.mp h
    exact same_scalar_iff.mpr ⟨a, rfl, hb.symm⟩
  | list xs item ih =>
    obtain ⟨ys, rfl, hys⟩ := same_list_iff.mp h
    have hboth := (List.forall₂_and_left xs ys).mpr ⟨ih, hys⟩
    exact same_list_iff.mpr ⟨xs, rfl, (hboth.imp fun _ _ hxy => hxy.1 hxy.2).flip⟩

theorem same_comm (v w : Value) : v.same w = w.same v :=
  Bool.eq_iff_iff.mpr ⟨same_symm, same_symm⟩

theorem same_trans (huv : u.same v = true) (hvw : v.same w = true) : u.same w = true := by
  induction u using nested_induction generalizing v w with
  | null r =>
    obtain ⟨s, rfl, hs⟩ := same_null_iff.mp huv
    obtain ⟨t, rfl, ht⟩ := same_null_iff.mp hvw
    exact same_null_iff.mpr ⟨t, rfl, SqlType.sameNull_trans hs ht⟩
  | scalar a =>
    obtain ⟨b, rfl, hb⟩ := same_scalar_iff.mp huv
    obtain ⟨c, rfl, hc⟩ := same_scalar_iff.mp hvw
    exact same_scalar_iff.mpr ⟨c, rfl, hb.trans hc⟩
  | list xs item ih =>
    obtain ⟨ys, rfl, hys⟩ := same_list_iff.mp huv
    obtain ⟨zs, rfl, hzs⟩ := same_list_iff.mp hvw
    exact same_list_iff.mpr ⟨zs, rfl, forall₂_trans (fun x hx _ _ => ih x hx) hys hzs⟩

/-! ### Places in nested lists -/

/-- The value at a place in nested lists, told by the numbers of the items on the way to it. -/
def at? : List Nat → Value → Option Value
  | [], v => some v
  | i :: path, list items _ => items[i]?.bind (at? path)
  | _ :: _, _ => none

theorem anyHoldsNaN_eq_false_iff {items : List Value} :
    anyHoldsNaN items = false ↔ ∀ v ∈ items, v.holdsNaN = false := by
  induction items with
  | nil => simp [anyHoldsNaN]
  | cons v more ih => simp [anyHoldsNaN, ih]

theorem holdsNaN_eq_false_iff (v : Value) :
    v.holdsNaN = false ↔ ∀ path a, v.at? path = some (scalar a) → a.isNaN = false := by
  induction v using nested_induction with
  | null t =>
    refine iff_of_true rfl ?_
    rintro (_ | ⟨i, path⟩) a ha <;> cases ha
  | scalar b =>
    constructor
    · rintro hb (_ | ⟨i, path⟩) a ha
      · cases ha
        exact hb
      · cases ha
    · intro h
      exact h [] b rfl
  | list items item ih =>
    rw [holdsNaN, anyHoldsNaN_eq_false_iff]
    constructor
    · rintro hall (_ | ⟨i, path⟩) a ha
      · cases ha
      · obtain ⟨v, hv, ha⟩ := Option.bind_eq_some_iff.mp ha
        have hmem := List.mem_of_getElem? hv
        exact (ih v hmem).mp (hall v hmem) path a ha
    · intro h v hv
      obtain ⟨i, hi⟩ := List.mem_iff_getElem?.mp hv
      refine (ih v hv).mpr fun path a ha => h (i :: path) a ?_
      exact Option.bind_eq_some_iff.mpr ⟨v, hi, ha⟩

theorem same_self_iff (v : Value) :
    v.same v = true ↔ ∀ path a, v.at? path = some (scalar a) → a.isNaN = false := by
  rw [same_self, Bool.not_eq_true']
  exact holdsNaN_eq_false_iff v

/-- The items of a list. -/
def items : Value → List Value
  | list items _ => items
  | _ => []

/-- What values that are the same have in common. -/
structure Agree (v w : Value) : Prop where
  same : v.same w = true
  variant : v.type.variant = w.type.variant
  isNull : v.isNull = w.isNull
  item : v.type.item? = w.type.item?
  length : v.items.length = w.items.length
  items : List.Forall₂ (fun x y => x.same y = true) v.items w.items

theorem agree_of_same (h : v.same w = true) : Agree v w := by
  cases v with
  | null s =>
    obtain ⟨t, rfl, ht⟩ := same_null_iff.mp h
    obtain ⟨hvariant, hitem⟩ := SqlType.sameNull_iff.mp ht
    exact ⟨h, hvariant, rfl, hitem, rfl, .nil⟩
  | scalar a =>
    obtain ⟨b, rfl, hb⟩ := same_scalar_iff.mp h
    obtain ⟨hvariant, hitem⟩ := SqlType.sameNull_iff.mp hb.sameNull_type
    exact ⟨h, hvariant, rfl, hitem, rfl, .nil⟩
  | list xs item =>
    obtain ⟨ys, rfl, hys⟩ := same_list_iff.mp h
    exact ⟨h, rfl, rfl, rfl, hys.length_eq, hys⟩

theorem agree_at? (h : v.same w = true) (path : List Nat) :
    Option.Rel Agree (v.at? path) (w.at? path) := by
  induction path generalizing v w with
  | nil => exact .some (agree_of_same h)
  | cons i path ih =>
    cases v with
    | null s =>
      obtain ⟨t, rfl, -⟩ := same_null_iff.mp h
      exact .none
    | scalar a =>
      obtain ⟨b, rfl, -⟩ := same_scalar_iff.mp h
      exact .none
    | list xs item =>
      obtain ⟨ys, rfl, hys⟩ := same_list_iff.mp h
      have hi := rel_getElem? hys i
      simp only [at?]
      generalize xs[i]? = x, ys[i]? = y at hi
      cases hi with
      | none => exact .none
      | some hxy => exact ih hxy

/-- Sameness is symmetric and transitive, and reflexive for the values without NaN at any place in
them.  Values that are the same have the same places in them, and at each of them they are of one
variant; lists there have one declared type for their items, as many items, and pairwise the same
ones.  To be of one type is an equivalence, in which each value is equivalent to NULL of its
type. -/
theorem same_equivalence :
    (∀ v w : Value, v.same w = w.same v) ∧
      (∀ u v w : Value, u.same v = true → v.same w = true → u.same w = true) ∧
      (∀ v : Value,
        v.same v = true ↔ ∀ path a, v.at? path = some (scalar a) → a.isNaN = false) ∧
      (∀ v w : Value, v.same w = true → ∀ path, Option.Rel Agree (v.at? path) (w.at? path)) ∧
      (Equivalence fun v w : Value => v.sameType w = true) ∧
      ∀ v : Value, v.sameType v.asType = true := by
  refine ⟨same_comm, fun _ _ _ => same_trans, same_self_iff, fun _ _ => agree_at?, ?_, ?_⟩
  · simp only [sameType, decide_eq_true_eq]
    exact ⟨fun _ => rfl, Eq.symm, Eq.trans⟩
  · intro v
    exact decide_eq_true rfl

end Value

end BoundSql
