import BoundSql.Proofs.PlainValues

/-!
# Values read back

A value of a program's type is encoded to be bound, and what a database returns is decoded.  The
two are inverse to each other on every type in which no option stands directly inside an option
(`NativeType.Regular`), however lists and options are nested otherwise: an empty list, a list of
missing values and a list that is missing itself all read back as what they were.  An option inside
an option is lost, because the encoding has one NULL for both (`NativeType.decode_encode_iff`).
That NULL is of the type inside, as all values are that are there (`NativeType.ofType_encode`).
-/

namespace BoundSql

open Numeric

/-! ### Base types -/

namespace BaseType

theorem decodeInteger_encode {t : IntType} (n : Integer t) :
    decodeInteger t (.scalar (.integer t n)) = .ok n := by
  simp only [decodeInteger, integerOf?, dite_true]

theorem decodeBinary_encode {t : FloatType} (x : Binary t) :
    decodeBinary t (.scalar (.binary t x)) = .ok x := by
  simp only [decodeBinary, dite_true]

theorem decode_encode (b : BaseType) (x : b.Carrier) : b.decode (.scalar (b.encode x)) = .ok x := by
  cases b with
  | integer t => exact decodeInteger_encode x
  | binary t => exact decodeBinary_encode x
  | _ => rfl

end BaseType

theorem decodeEach_map {α β γ : Type} (f : β → Except Fault γ) (g : α → β) (xs : List α) :
    decodeEach f (xs.map g) = decodeEach (f ∘ g) xs := by
  induction xs with
  | nil => rfl
  | cons x xs ih =>
    simp only [List.map_cons, decodeEach, ih]
    rfl

/-! ### Nested types -/

/-- A value is of an SQL type: the NULL of the type, a scalar of the type, or a list of items of the
type that it declares for them.  A decimal is also of the decimal type that declares no places,
whatever places it declares itself. -/
inductive Value.OfType : Value → SqlType → Prop where
  | null (t : SqlType) : OfType (.null t) t
  | scalar (s : Scalar) : OfType (.scalar s) s.type
  | decimal (d : Decimal) (precision scale : Nat) :
    OfType (.scalar (.decimal d precision scale)) (.decimal 0 0)
  | list {items : List Value} {t : SqlType} (h : ∀ v ∈ items, OfType v t) :
    OfType (.list items t) (.list t)

theorem Value.OfType.name_eq {v : Value} {t : SqlType} (h : v.OfType t) : v.type.name = t.name := by
  cases h <;> rfl

theorem BaseType.ofType_encode (b : BaseType) (x : b.Carrier) :
    Value.OfType (.scalar (b.encode x)) b.sqlType := by
  cases b with
  | decimal => exact .decimal x 0 x.scale
  | _ => exact .scalar _

namespace NativeType

/-- The values of a type are of its SQL type, missing ones and the items of lists included. -/
theorem ofType_encode (t : NativeType) (x : t.Carrier) : (t.encode x).OfType t.sqlType := by
  induction t with
  | base b => exact b.ofType_encode x
  | option t ih =>
    cases x with
    | none => exact .null t.sqlType
    | some x => exact ih x
  | list t ih =>
    refine .list ?_
    intro v hv
    obtain ⟨y, -, rfl⟩ := List.mem_map.mp hv
    exact ih y

/-- The values of a type have the type name of the type, missing ones included. -/
theorem type_name_encode (t : NativeType) (x : t.Carrier) :
    (t.encode x).type.name = t.sqlType.name :=
  (t.ofType_encode x).name_eq

/-- No option stands directly inside an option, at any depth. -/
inductive Regular : NativeType → Prop where
  | base (b : BaseType) : Regular (base b)
  | list {t : NativeType} (h : Regular t) : Regular (list t)
  | option {t : NativeType} (h : Regular t) (ht : t.isOption = false) : Regular (option t)

variable {t : NativeType}

/-- Only a missing option is encoded as NULL. -/
theorem isNull_encode (ht : t.isOption = false) (x : t.Carrier) : (t.encode x).isNull = false := by
  cases t with
  | base b => rfl
  | list t => rfl
  | option t => cases ht

theorem decode_option_encode_some (ht : t.isOption = false) (x : t.Carrier) :
    (option t).decode ((option t).encode (some x)) = (t.decode (t.encode x)).map some := by
  have hpresent := isNull_encode ht x
  simp only [encode, decode, hpresent]
  rfl

theorem decode_option_empty (t : NativeType) : (option t).decode t.empty = .ok none := rfl

theorem Regular.decode_encode (ht : t.Regular) (x : t.Carrier) :
    t.decode (t.encode x) = .ok x := by
  induction ht with
  | base b => exact b.decode_encode x
  | @list t _ ih =>
    have hitems : decodeEach (t.decode ∘ t.encode) x = .ok (x.map id) :=
      decodeEach_eq_ok fun y _ => ih y
    rw [List.map_id] at hitems
    exact (decodeEach_map t.decode t.encode x).trans hitems
  | @option t _ hplain ih =>
    cases x with
    | none => exact decode_option_empty t
    | some x =>
      rw [decode_option_encode_some hplain, ih]
      rfl

/-- Of a type that is not regular some value does not read back: one in which an option that is
there holds one that is missing. -/
theorem exists_decode_encode_ne (ht : ¬ t.Regular) :
    ∃ x : t.Carrier, t.decode (t.encode x) ≠ .ok x := by
  induction t with
  | base b => exact absurd (.base b) ht
  | list t ih =>
    obtain ⟨x, hx⟩ := ih fun h => ht h.list
    refine ⟨[x], ?_⟩
    intro hlist
    apply hx
    simp only [encode, decode, List.map_cons, List.map_nil, decodeEach] at hlist
    cases hitem : t.decode (t.encode x) with
    | error e =>
      rw [hitem] at hlist
      cases hlist
    | ok y =>
      rw [hitem] at hlist
      have hsame : [y] = [x] := Except.ok.inj hlist
      rw [List.head_eq_of_cons_eq hsame]
  | option t ih =>
    cases hplain : t.isOption with
    | true =>
      cases t with
      | option t =>
        refine ⟨some none, ?_⟩
        intro hnone
        cases hnone
      | base b => cases hplain
      | list t => cases hplain
    | false =>
      obtain ⟨x, hx⟩ := ih fun h => ht (h.option hplain)
      refine ⟨some x, ?_⟩
      rw [decode_option_encode_some hplain]
      intro hsome
      apply hx
      cases hitem : t.decode (t.encode x) with
      | error e =>
        rw [hitem] at hsome
        cases hsome
      | ok y =>
        rw [hitem] at hsome
        exact congrArg Except.ok (Option.some.inj (Except.ok.inj hsome))

/-- All values of a type read back as they were if and only if no option stands directly inside an
option.  A missing value is the NULL of the type inside, which is the type that the values inside
are of; it reads back as missing, and nothing but a missing option is NULL. -/
theorem decode_encode_iff (t : NativeType) :
    (t.Regular ↔ ∀ x : t.Carrier, t.decode (t.encode x) = .ok x) ∧
      ((option t).encode none = t.empty ∧ t.empty = .null t.sqlType ∧
        (option t).decode t.empty = .ok none) ∧
      (∀ x : t.Carrier, (t.encode x).OfType t.sqlType ∧
        (t.encode x).type.name = t.empty.type.name) ∧
      (t.isOption = false → ∀ x : t.Carrier, (t.encode x).isNull = false) := by
  refine ⟨⟨Regular.decode_encode, ?_⟩, ⟨rfl, rfl, decode_option_empty t⟩, ?_, isNull_encode⟩
  · intro hall
    by_contra hirregular
    obtain ⟨x, hx⟩ := exists_decode_encode_ne hirregular
    exact hx (hall x)
  · intro x
    exact ⟨t.ofType_encode x, t.type_name_encode x⟩

/-- Lists of options of lists of decimals: one that is missing, one that is empty, and one with a
decimal that ends in a zero. -/
example :
    let t : NativeType := option (list (option (list (base .decimal))))
    let d : Decimal := ⟨false, 150, 2, by decide, by decide⟩
    t.decode (t.encode (some [none, some [], some [d]])) = .ok (some [none, some [], some [d]]) :=
  rfl

end NativeType

end BoundSql
