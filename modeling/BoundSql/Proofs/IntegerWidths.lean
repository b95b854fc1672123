import BoundSql.Proofs.Encoding
import Mathlib.Data.List.Forall2

/-!
# Integers read in another type

A database may store an integer in another type than it was bound in.  What an integer is read as
depends on its number alone: it is that number in any type that has it, and a fault in any other.
This holds in lists and options too.  Values with the same numbers are read alike, as whatever type
(`NativeType.decode_sameNumbers`), and what integers are read from a value has the numbers of the
value (`Nesting.sameNumbers_encode`).  So integers that are read in another type are the original
ones where they are read back (`decode_integer_exactly`).
-/

namespace BoundSql

open Numeric

/-! ### Numbers of a type -/

namespace Numeric.Integer

variable {t : IntType}

theorem ofInt?_of_outside {n : Int} (h : ¬ (t.least ≤ n ∧ n ≤ t.greatest)) : ofInt? t n = none :=
  dif_neg h

theorem exists_toInt_iff {n : Int} :
    (∃ m : Integer t, m.toInt = n) ↔ t.least ≤ n ∧ n ≤ t.greatest := by
  constructor
  · rintro ⟨m, rfl⟩
    exact ⟨m.least_le, m.le_greatest⟩
  · rintro ⟨hleast, hgreatest⟩
    exact ⟨⟨n, hleast, hgreatest⟩, rfl⟩

/-- A decimal has room for every number of an integer type. -/
theorem natAbs_lt_coefficientLimit (n : Integer t) : n.toInt.natAbs < coefficientLimit := by
  have hleast : -(pow2 63 : Int) ≤ t.least := by cases t <;> decide
  have hgreatest : t.greatest < pow2 64 := by cases t <;> decide
  have hlimit : (pow2 63 : Int) < coefficientLimit ∧ (pow2 64 : Int) < coefficientLimit := by decide
  have := n.least_le
  have := n.le_greatest
  omega

end Numeric.Integer

/-! ### Base types -/

namespace BaseType

variable {t : IntType}

/-- Whether an integer is of the type that it is read as or of another, the outcome is that of its
number. -/
theorem decodeInteger_integer (u : IntType) (n : Integer t) :
    decodeInteger u (.scalar (.integer t n)) =
      (Integer.ofInt? u n.toInt).elim (.error (.decoding (.outOfRange n.toInt u))) .ok := by
  by_cases h : t = u
  · subst h
    rw [decodeInteger_encode, Integer.ofInt?_toInt]
    rfl
  · simp only [decodeInteger, integerOf?, dif_neg h, Value.asInteger]
    cases Integer.ofInt? u n.toInt <;> rfl

theorem decodeInteger_eq_ok_iff {u : IntType} {n : Integer t} {m : Integer u} :
    decodeInteger u (.scalar (.integer t n)) = .ok m ↔ m.toInt = n.toInt := by
  rw [decodeInteger_integer, ← Integer.ofInt?_eq_some]
  cases Integer.ofInt? u n.toInt <;> simp

theorem decodeInteger_eq_error_iff {u : IntType} {n : Integer t} {f : Fault} :
    decodeInteger u (.scalar (.integer t n)) = .error f ↔
      ¬ (u.least ≤ n.toInt ∧ n.toInt ≤ u.greatest) ∧ f = .decoding (.outOfRange n.toInt u) := by
  by_cases hfits : u.least ≤ n.toInt ∧ n.toInt ≤ u.greatest
  · obtain ⟨m, hm⟩ := Integer.exists_toInt_iff.mpr hfits
    rw [decodeInteger_eq_ok_iff.mpr hm]
    simp [hfits]
  · rw [decodeInteger_integer, Integer.ofInt?_of_outside hfits]
    simp [hfits, eq_comm]

theorem decodeBoolean_integer (n : Integer t) :
    decodeBoolean (.scalar (.integer t n)) =
      if n.toInt = 0 then .ok false
      else if n.toInt = 1 then .ok true
      else .error (.decoding (.mismatch (.scalar (.integer t n)) (.base .boolean))) := by
  simp only [decodeBoolean, Value.asInteger]
  split
  · next h => rw [if_pos (Option.some.inj h)]
  · next h =>
    have hone := Option.some.inj h
    rw [if_neg (by omega), if_pos hone]
  · next hzero hone =>
    rw [if_neg fun h => hzero (congrArg some h), if_neg fun h => hone (congrArg some h)]
    rfl

theorem decodeBoolean_eq_ok_iff {n : Integer t} {b : Bool} :
    decodeBoolean (.scalar (.integer t n)) = .ok b ↔ b.toInt = n.toInt := by
  rw [decodeBoolean_integer]
  split
  · next h => cases b <;> simp [h]
  · next hzero =>
    split
    · next h => cases b <;> simp [h]
    · next hone => cases b <;> simp [Ne.symm hzero, Ne.symm hone]

theorem decodeBoolean_eq_error_iff {n : Integer t} {f : Fault} :
    decodeBoolean (.scalar (.integer t n)) = .error f ↔
      (n.toInt ≠ 0 ∧ n.toInt ≠ 1) ∧
        f = .decoding (.mismatch (.scalar (.integer t n)) (.base .boolean)) := by
  rw [decodeBoolean_integer]
  split
  · next h => simp [h]
  · next hzero =>
    split
    · next h => simp [h]
    · next hone => simp [hzero, hone, eq_comm]

theorem decodeDecimal_integer (n : Integer t) :
    decodeDecimal (.scalar (.integer t n)) =
      .ok ⟨decide (n.toInt < 0), n.toInt.natAbs, 0, n.natAbs_lt_coefficientLimit, by decide⟩ := by
  have hfits : n.toInt.natAbs < coefficientLimit ∧ 0 ≤ maxScale :=
    ⟨n.natAbs_lt_coefficientLimit, Nat.zero_le _⟩
  simp only [decodeDecimal, Value.asInteger, Option.bind_some, Decimal.ofInt?, Decimal.make?,
    dif_pos hfits]

end BaseType

/-! ### Lists and options -/

theorem toOption_map_some {α : Type} (r : Except Fault α) :
    (r.map some).toOption = r.toOption.map some := by
  cases r <;> rfl

theorem eq_ok_of_toOption {α : Type} {r : Except Fault α} {x : α} (h : r.toOption = some x) :
    r = .ok x := by
  cases r with
  | error f => cases h
  | ok y => rw [Option.some.inj h]

theorem decodeEach_toOption {α β : Type} {f : α → Except Fault β} {xs ys : List α}
    (h : List.Forall₂ (fun x y => (f x).toOption = (f y).toOption) xs ys) :
    (decodeEach f xs).toOption = (decodeEach f ys).toOption := by
  induction h with
  | nil => rfl
  | @cons x y xs ys hfirst _ ih =>
    simp only [decodeEach]
    generalize f x = r at hfirst ⊢
    generalize f y = r' at hfirst ⊢
    cases r <;> cases r' <;> cases hfirst
    · rfl
    · generalize decodeEach f xs = r at ih ⊢
      generalize decodeEach f ys = r' at ih ⊢
      cases r <;> cases r' <;> cases ih <;> rfl

theorem decodeEach_eq_ok_iff {α β : Type} {f : α → Except Fault β} {xs : List α} {ys : List β} :
    decodeEach f xs = .ok ys ↔ List.Forall₂ (fun x y => f x = .ok y) xs ys := by
  induction xs generalizing ys with
  | nil => simp [decodeEach, eq_comm]
  | cons x xs ih =>
    rw [List.forall₂_cons_left_iff]
    simp only [decodeEach, ← ih]
    cases f x with
    | error e => simp
    | ok y => cases decodeEach f xs <;> simp [Except.map, eq_comm]

theorem exists_decodeEach_iff {α β : Type} {f : α → Except Fault β} {xs : List α} :
    (∃ ys, decodeEach f xs = .ok ys) ↔ ∀ x ∈ xs, ∃ y, f x = .ok y := by
  constructor
  · rintro ⟨ys, hys⟩ x hx
    obtain ⟨y, -, hy⟩ := (Building.mem_of_decodeEach hys).1 x hx
    exact ⟨y, hy⟩
  · intro h
    induction xs with
    | nil => exact ⟨[], rfl⟩
    | cons x xs ih =>
      obtain ⟨y, hy⟩ := h x List.mem_cons_self
      obtain ⟨ys, hys⟩ := ih fun z hz => h z (List.mem_cons_of_mem _ hz)
      exact ⟨y :: ys, decodeEach_eq_ok_iff.mpr (.cons hy (decodeEach_eq_ok_iff.mp hys))⟩

theorem NativeType.decode_option_eq_ok_iff {t : NativeType} {v : Value} {y : Option t.Carrier} :
    (option t).decode v = .ok y ↔
      (v.isNull = true ∧ y = none) ∨ (v.isNull = false ∧ ∃ x, t.decode v = .ok x ∧ y = some x) := by
  simp only [decode]
  cases v.isNull with
  | true => simp [eq_comm]
  | false => cases t.decode v <;> simp [Except.map, eq_comm]

theorem NativeType.exists_decode_option_iff {t : NativeType} {v : Value} :
    (∃ y : Option t.Carrier, (option t).decode v = .ok y) ↔
      v.isNull = true ∨ ∃ y, t.decode v = .ok y := by
  simp only [decode]
  cases v.isNull with
  | true => simp
  | false => cases t.decode v <;> simp [Except.map]

/-! ### Values with the same numbers -/

/-- The values have the same integers at the same places, of whatever types, and are NULL at the
same places. -/
inductive Value.SameNumbers : Value → Value → Prop where
  | null (s t : SqlType) : SameNumbers (null s) (null t)
  | integer {t u : IntType} {n : Integer t} {m : Integer u} (h : n.toInt = m.toInt) :
      SameNumbers (scalar (.integer t n)) (scalar (.integer u m))
  | list {vs ws : List Value} {s t : SqlType} (h : List.Forall₂ SameNumbers vs ws) :
      SameNumbers (list vs s) (list ws t)

/-- Integers with the same number are read alike, as any base type. -/
theorem BaseType.decode_sameNumbers (b : BaseType) {v w : Value} (h : v.SameNumbers w) :
    (b.decode v).toOption = (b.decode w).toOption := by
  cases h with
  | null s t => cases b <;> rfl
  | list h => cases b <;> rfl
  | @integer t u n m h =>
    cases b with
    | integer t' => simp only [decode, decodeInteger_integer, h]
    | boolean =>
      simp only [decode, decodeBoolean_integer, h]
      split
      · rfl
      · split <;> rfl
    | decimal => simp only [decode, decodeDecimal_integer, h]
    | binary t' => simp only [decode, decodeBinary, Value.asInteger, h]
    | _ => rfl

/-- Values with the same numbers are read alike, as any type. -/
theorem NativeType.decode_sameNumbers (t : NativeType) {v w : Value} (h : v.SameNumbers w) :
    (t.decode v).toOption = (t.decode w).toOption := by
  induction t generalizing v w with
  | base b => exact b.decode_sameNumbers h
  | option t ih =>
    have hnull : v.isNull = w.isNull := by cases h <;> rfl
    simp only [decode, hnull]
    split
    · rfl
    · rw [toOption_map_some, toOption_map_some, ih h]
  | list t ih =>
    cases h with
    | null s t => rfl
    | integer h => rfl
    | list h => exact decodeEach_toOption (h.imp fun _ _ => ih)

/-! ### Nested integers -/

/-- How options and lists are nested around items. -/
inductive Nesting where
  | item
  | option (s : Nesting)
  | list (s : Nesting)

namespace Nesting

/-- The type with the nesting around a base type. -/
def around (b : BaseType) : Nesting → NativeType
  | item => .base b
  | option s => .option (s.around b)
  | list s => .list (s.around b)

variable {t : IntType}

/-- Every integer is in the range of another type. -/
def Fits (u : IntType) : (s : Nesting) → (s.around (.integer t)).Carrier → Prop
  | item, (n : Integer t) => u.least ≤ n.toInt ∧ n.toInt ≤ u.greatest
  | option _, none => True
  | option s, some x => s.Fits u x
  | list s, xs => List.Forall (s.Fits u) xs

theorem fits_of_isNull {u : IntType} (s : Nesting) {x : (s.around (.integer t)).Carrier}
    (h : ((s.around (.integer t)).encode x).isNull = true) : s.Fits u x := by
  induction s with
  | item => cases h
  | list s => cases h
  | option s ih =>
    cases x with
    | none => trivial
    | some x => exact ih h

theorem fits_self (s : Nesting) (x : (s.around (.integer t)).Carrier) : s.Fits t x := by
  induction s with
  | item =>
    exact Integer.exists_toInt_iff.mp ⟨x, rfl⟩
  | option s ih =>
    cases x with
    | none => trivial
    | some x => exact ih x
  | list s ih => exact List.forall_iff_forall_mem.mpr fun y _ => ih y

/-- Integers are read as another type if all of them are numbers of it. -/
theorem exists_decode_iff (s : Nesting) (u : IntType) (x : (s.around (.integer t)).Carrier) :
    (∃ y, (s.around (.integer u)).decode ((s.around (.integer t)).encode x) = .ok y) ↔
      s.Fits u x := by
  induction s with
  | item =>
    exact (exists_congr fun _ => BaseType.decodeInteger_eq_ok_iff).trans Integer.exists_toInt_iff
  | option s ih =>
    cases x with
    | none => exact ⟨fun _ => trivial, fun _ => ⟨none, rfl⟩⟩
    | some x =>
      refine NativeType.exists_decode_option_iff.trans ((or_congr_right (ih x)).trans ?_)
      exact or_iff_right_of_imp s.fits_of_isNull
  | list s ih =>
    have hitems : s.list.Fits u x ↔ ∀ y ∈ (show List _ from x), s.Fits u y :=
      List.forall_iff_forall_mem
    rw [hitems]
    refine Iff.trans ?_ (forall₂_congr fun y _ => ih y)
    exact exists_decodeEach_iff.trans List.forall_mem_map

/-- The integers that are read from a value have the numbers of the value. -/
theorem sameNumbers_encode (s : Nesting) (u : IntType) {v : Value}
    {y : (s.around (.integer u)).Carrier} (h : (s.around (.integer u)).decode v = .ok y) :
    ((s.around (.integer u)).encode y).SameNumbers v := by
  induction s generalizing v with
  | item =>
    cases v with
    | null s => cases h
    | list items s => cases h
    | scalar x =>
      cases x with
      | integer t n => exact .integer (BaseType.decodeInteger_eq_ok_iff.mp h)
      | _ => cases h
  | option s ih =>
    rcases NativeType.decode_option_eq_ok_iff.mp h with ⟨hnull, rfl⟩ | ⟨-, x, hx, rfl⟩
    · cases v with
      | null t => exact .null _ _
      | scalar x => cases hnull
      | list items t => cases hnull
    · exact ih hx
  | list s ih =>
    cases v with
    | list items t =>
      have hitems := (decodeEach_eq_ok_iff.mp h).imp fun _ _ => ih
      exact .list (List.forall₂_map_left_iff.mpr hitems.flip)
    | null t => cases h
    | scalar x => cases h

end Nesting

/-! ### Exactness -/

/-- An integer of any type is read as exactly its number or not at all: as an integer type that has
the number, as a truth value if it is zero or one, and always as a decimal without places.  What it
is read as, by itself or in lists and options, depends on the numbers alone and has the same numbers.
Integers that are encoded in one type are read as another if all of them are numbers of it, and what
is then encoded and read back is the original, as it is read without the detour. -/
theorem decode_integer_exactly :
    (∀ (t : IntType) (n : Integer t), let v := Value.scalar (.integer t n)
      (∀ u : IntType,
        (∀ m, (BaseType.integer u).decode v = .ok m ↔ m.toInt = n.toInt) ∧
          ∀ f, (BaseType.integer u).decode v = .error f ↔
            ¬ (u.least ≤ n.toInt ∧ n.toInt ≤ u.greatest) ∧
              f = .decoding (.outOfRange n.toInt u)) ∧
        ((∀ b, BaseType.boolean.decode v = .ok b ↔ b.toInt = n.toInt) ∧
          ∀ f, BaseType.boolean.decode v = .error f ↔
            (n.toInt ≠ 0 ∧ n.toInt ≠ 1) ∧ f = .decoding (.mismatch v (.base .boolean))) ∧
        ∃ d, BaseType.decimal.decode v = .ok d ∧ d.signed = n.toInt ∧ d.scale = 0 ∧
          d.negative = decide (n.toInt < 0)) ∧
      (∀ v w : Value, v.SameNumbers w → ∀ t : NativeType,
        (t.decode v).toOption = (t.decode w).toOption) ∧
      (∀ (s : Nesting) (u : IntType) (v : Value) (y),
        (s.around (.integer u)).decode v = .ok y →
          ((s.around (.integer u)).encode y).SameNumbers v) ∧
      ∀ (s : Nesting) (t u : IntType) (x : (s.around (.integer t)).Carrier),
        ((∃ y, (s.around (.integer u)).decode ((s.around (.integer t)).encode x) = .ok y) ↔
          s.Fits u x) ∧
        ∃ original,
          (s.around (.integer t)).decode ((s.around (.integer t)).encode x) = .ok original ∧
          ((s.around (.integer t)).Regular → original = x) ∧
          ∀ y, (s.around (.integer u)).decode ((s.around (.integer t)).encode x) = .ok y →
            (s.around (.integer t)).decode ((s.around (.integer u)).encode y) = .ok original := by
  refine ⟨?_, fun v w h t => t.decode_sameNumbers h, fun s u v y => s.sameNumbers_encode u, ?_⟩
  · intro t n v
    refine ⟨fun u => ⟨fun m => BaseType.decodeInteger_eq_ok_iff,
        fun f => BaseType.decodeInteger_eq_error_iff⟩,
      ⟨fun b => BaseType.decodeBoolean_eq_ok_iff, fun f => BaseType.decodeBoolean_eq_error_iff⟩,
      _, BaseType.decodeDecimal_integer n, ?_, rfl, rfl⟩
    by_cases hnegative : n.toInt < 0
    · simp only [Decimal.signed, hnegative, decide_true, if_true]
      omega
    · simp only [Decimal.signed, hnegative, decide_false, Bool.false_eq_true, if_false]
      omega
  · intro s t u x
    obtain ⟨original, horiginal⟩ := (s.exists_decode_iff t x).mpr (s.fits_self x)
    refine ⟨s.exists_decode_iff u x, original, horiginal, ?_, ?_⟩
    · intro hregular
      exact Except.ok.inj (horiginal.symm.trans (hregular.decode_encode x))
    · intro y hy
      have hback := (s.around (.integer t)).decode_sameNumbers (s.sameNumbers_encode u hy)
      rw [horiginal] at hback
      exact eq_ok_of_toOption hback

/-- Two hundred fits a byte without a sign and none with one. -/
example :
    let s : Nesting := .list (.option .item)
    let x : List (Option (Integer .int64)) := [some ⟨200, by decide, by decide⟩, none]
    let y : List (Option (Integer .uint8)) := [some ⟨200, by decide, by decide⟩, none]
    (s.around (.integer .uint8)).decode ((s.around (.integer .int64)).encode x) = .ok y ∧
      (s.around (.integer .int64)).decode ((s.around (.integer .uint8)).encode y) = .ok x ∧
      (s.around (.integer .int8)).decode ((s.around (.integer .int64)).encode x) =
        .error (.decoding (.outOfRange 200 .int8)) :=
  ⟨rfl, rfl, rfl⟩

end BoundSql
