import BoundSql.Proofs.Names
import BoundSql.Proofs.TimestampText
import BoundSql.Value.Describe

/-!
# Equal values with different texts

Values that are the same may be different ones: decimals with zeros at their end, instants with
other offsets, zeros with a sign.  The text that diagnostics show of a value tells these apart.  Of
values that are the same, only a value and itself have one text (`Value.describe_eq_iff`), and the
text tells the value in front of whatever follows it, so that lists are told apart as well.
-/

namespace BoundSql

open Numeric Calendar

/-! ### Texts up to a character -/

section Ends

variable {c : Char} {xs ys us vs : List Char}

/-- Texts without a character are told by what they are in front of it. -/
theorem Text.append_cons_inj (hx : c ∉ xs) (hy : c ∉ ys) (h : xs ++ c :: us = ys ++ c :: vs) :
    xs = ys ∧ us = vs := by
  induction xs generalizing ys with
  | nil =>
    cases ys with
    | nil => exact ⟨rfl, (List.cons.inj h).2⟩
    | cons y ys =>
      obtain ⟨rfl, -⟩ := List.cons.inj h
      exact absurd List.mem_cons_self hy
  | cons x xs ih =>
    cases ys with
    | nil =>
      obtain ⟨rfl, -⟩ := List.cons.inj h
      exact absurd List.mem_cons_self hx
    | cons y ys =>
      obtain ⟨rfl, htail⟩ := List.cons.inj h
      obtain ⟨rfl, hrest⟩ := ih (fun hmem => hx (List.mem_cons_of_mem _ hmem))
        (fun hmem => hy (List.mem_cons_of_mem _ hmem)) htail
      exact ⟨rfl, hrest⟩

end Ends

/-! ### Digits -/

namespace Numeric

variable {c : Char}

theorem not_mem_digits (hc : c.isDigit = false) (n : Nat) : c ∉ digits n := by
  intro hmem
  have hdigit : c.isDigit = true := Nat.isDigit_of_mem_toDigits (by decide) (by decide) hmem
  exact Bool.false_ne_true (hc.symm.trans hdigit)

theorem not_mem_padded (hc : c.isDigit = false) (width n : Nat) : c ∉ padded width n := by
  induction width generalizing n with
  | zero => exact List.not_mem_nil
  | succ width ih =>
    have hdigit : ∀ k < 10, (Char.ofNat (48 + k)).isDigit = true := by decide
    rw [padded, List.mem_append, List.mem_singleton, not_or]
    refine ⟨ih _, ?_⟩
    rintro rfl
    exact Bool.false_ne_true (hc.symm.trans (hdigit _ (Nat.mod_lt n (by decide))))

theorem not_mem_atLeast (hc : c.isDigit = false) (width n : Nat) : c ∉ atLeast width n := by
  unfold atLeast
  split
  · exact not_mem_padded hc width n
  · exact not_mem_digits hc n

theorem le_length_atLeast (width n : Nat) : width ≤ (atLeast width n).length := by
  unfold atLeast
  split
  · exact Nat.le_of_eq (padded_length width n).symm
  · next hlarge =>
    rcases Nat.eq_zero_or_pos width with rfl | hwidth
    · exact Nat.zero_le _
    · have hshort : ¬ (digits n).length ≤ width := fun hle =>
        hlarge ((Nat.length_toDigits_le_iff (by decide) hwidth).mp hle)
      omega

theorem padded_inj {width m n : Nat} (hwidth : 0 < width) (hm : m < pow10 width)
    (hn : n < pow10 width) (h : padded width m = padded width n) : m = n := by
  have hread := readPadded?_padded hwidth hm
  rw [h, readPadded?_padded hwidth hn] at hread
  exact (Option.some.inj hread).symm

theorem digits_append_cons_inj (hc : c.isDigit = false) {m n : Nat} {us vs : List Char}
    (h : digits m ++ c :: us = digits n ++ c :: vs) : m = n ∧ us = vs := by
  obtain ⟨hdigits, hrest⟩ :=
    Text.append_cons_inj (not_mem_digits hc m) (not_mem_digits hc n) h
  exact ⟨Names.natText_injective (congrArg String.ofList hdigits), hrest⟩

/-- Two numbers with a comma between them are told in front of a parenthesis. -/
theorem digits_pair_inj {m n m' n' : Nat} {us vs : List Char}
    (h : digits m ++ ',' :: ' ' :: (digits n ++ ')' :: us) =
      digits m' ++ ',' :: ' ' :: (digits n' ++ ')' :: vs)) : m = m' ∧ n = n' := by
  obtain ⟨hfirst, hrest⟩ := digits_append_cons_inj rfl h
  exact ⟨hfirst, (digits_append_cons_inj rfl (List.cons.inj hrest).2).1⟩

/-! ### Binary numbers -/

namespace Binary

variable {t : FloatType} {x y : Binary t}

/-- There are two zeros. -/
theorem eq_of_isZero (hx : x.isZero = true) (hy : y.isZero = true)
    (hsign : x.negative = y.negative) : x = y := by
  have hx : x.bits.toNat % pow2 (t.width - 1) = 0 := of_decide_eq_true hx
  have hy : y.bits.toNat % pow2 (t.width - 1) = 0 := of_decide_eq_true hy
  have hsign : pow2 (t.width - 1) ≤ x.bits.toNat ↔ pow2 (t.width - 1) ≤ y.bits.toNat :=
    decide_eq_decide.mp hsign
  obtain ⟨a⟩ := x
  obtain ⟨b⟩ := y
  have ha := a.isLt
  have hb := b.isLt
  have hbits : a.toNat = b.toNat := by
    cases t <;> simp only [FloatType.width, pow2, Nat.pow_eq] at * <;> omega
  rw [BitVec.eq_of_toNat_eq hbits]

/-- A zero is written with its sign. -/
theorem text_of_isZero (hx : x.isZero = true) :
    x.text .diagnostic = (if x.negative then "-" else "") ++ "0.0" := by
  have hmagnitude : x.magnitude = 0 := of_decide_eq_true hx
  have hnan : x.isNaN = false := by
    rw [isNaN, hmagnitude]
    exact decide_eq_false (Nat.not_lt_zero _)
  have hfinite : x.isFinite = true := by
    rw [isFinite, hmagnitude]
    cases t <;> decide
  have hzero : (⟨0, 0⟩ : Numeral).inPlace FloatLayout.diagnostic.wholeTail = "0.0" := by decide
  simp [text, hnan, hfinite, hx, shortest, hzero]

/-- Numbers that are the same are told by their sign. -/
theorem eq_of_text {us vs : List Char} (hsame : x.same y = true)
    (h : (x.text .diagnostic).toList ++ us = (y.text .diagnostic).toList ++ vs) : x = y := by
  simp only [same, Bool.and_eq_true, Bool.or_eq_true, decide_eq_true_eq] at hsame
  obtain ⟨-, rfl | ⟨hx, hy⟩⟩ := hsame
  · rfl
  · apply eq_of_isZero hx hy
    rw [text_of_isZero hx, text_of_isZero hy] at h
    by_cases hnegative : x.negative = true <;> by_cases hnegative' : y.negative = true <;>
      simp [hnegative, hnegative'] at h ⊢

end Binary

/-! ### Decimals -/

namespace Decimal

variable (d : Decimal)

/-- The digits in front of the point. -/
def whole : List Char :=
  let ds := atLeast (d.scale + 1) d.coefficient
  ds.take (ds.length - d.scale)

/-- The digits behind the point. -/
def places : List Char :=
  let ds := atLeast (d.scale + 1) d.coefficient
  ds.drop (ds.length - d.scale)

theorem toList_text :
    d.text.toList = (if d.negative then ['-'] else []) ++
      if d.scale = 0 then d.whole else d.whole ++ '.' :: d.places := by
  unfold text
  rw [String.toList_append, String.toList_ofList]
  cases d.negative <;> rfl

theorem length_places : d.places.length = d.scale := by
  have hlong := le_length_atLeast (d.scale + 1) d.coefficient
  simp only [places, List.length_drop]
  omega

variable {d} {c : Char} (hc : c.isDigit = false)

include hc

theorem not_mem_whole : c ∉ d.whole := fun hmem =>
  not_mem_atLeast hc _ _ (List.mem_of_mem_take hmem)

theorem not_mem_places : c ∉ d.places := fun hmem =>
  not_mem_atLeast hc _ _ (List.mem_of_mem_drop hmem)

theorem mem_text : c ∈ d.text.toList ↔
    (c = '-' ∧ d.negative = true) ∨ (c = '.' ∧ d.scale ≠ 0) := by
  rw [toList_text]
  have hwhole : c ∉ d.whole := not_mem_whole hc
  have hplaces : c ∉ d.places := not_mem_places hc
  by_cases hscale : d.scale = 0 <;> cases d.negative <;> simp [hscale, hwhole, hplaces]

omit hc

/-- A decimal is told by its number, its sign and how many digits are behind the point. -/
theorem eq_of_text {a b : Decimal} (hsame : a.same b = true) (h : a.text = b.text) : a = b := by
  have hnegative : a.negative = b.negative := by
    have hsign : '-' ∈ a.text.toList ↔ '-' ∈ b.text.toList := by rw [h]
    rw [mem_text rfl, mem_text rfl] at hsign
    rw [Bool.eq_iff_iff]
    simpa using hsign
  -- a point tells that there are places, and what is behind it how many
  have hscale : a.scale = b.scale := by
    have hpoint : '.' ∈ a.text.toList ↔ '.' ∈ b.text.toList := by rw [h]
    rw [mem_text rfl, mem_text rfl] at hpoint
    have hzero : a.scale = 0 ↔ b.scale = 0 := by simpa [not_iff_not] using hpoint
    have hchars := congrArg String.toList h
    rw [toList_text, toList_text, hnegative, List.append_cancel_left_eq] at hchars
    by_cases hb : b.scale = 0
    · rw [hb, hzero.mpr hb]
    · rw [if_neg hb, if_neg fun ha => hb (hzero.mp ha)] at hchars
      obtain ⟨-, hplaces⟩ :=
        Text.append_cons_inj (not_mem_whole rfl) (not_mem_whole rfl) hchars
      rw [← a.length_places, hplaces, b.length_places]
  have hcoefficient : a.coefficient = b.coefficient := by
    have hnumber : a.signed * pow10 b.scale = b.signed * pow10 a.scale := of_decide_eq_true hsame
    have hpower : (pow10 b.scale : Int) ≠ 0 :=
      Int.natCast_ne_zero.mpr (Nat.ne_of_gt (pow10_pos _))
    rw [hscale] at hnumber
    have hsigned := Int.eq_of_mul_eq_mul_right hpower hnumber
    unfold signed at hsigned
    rw [hnegative] at hsigned
    split at hsigned <;> omega
  cases a
  cases b
  simp_all

end Decimal

end Numeric

/-! ### Instants -/

namespace Calendar

theorem Clock.eq_of_seconds {a b : Clock} (hseconds : a.seconds = b.seconds)
    (hnanosecond : a.nanosecond = b.nanosecond) : a = b := by
  have ha := a.minute_lt
  have ha' := a.second_lt
  have hb := b.minute_lt
  have hb' := b.second_lt
  unfold seconds at hseconds
  have hhour : a.hour = b.hour := by omega
  have hminute : a.minute = b.minute := by omega
  have hsecond : a.second = b.second := by omega
  cases a
  cases b
  simp_all

/-- On one day, a timestamp is told by its nanoseconds. -/
theorem Timestamp.eq_of_nanoseconds {a b : Timestamp} (hdate : a.date = b.date)
    (hnanoseconds : a.nanoseconds = b.nanoseconds) : a = b := by
  have ha := a.clock.nanosecond_lt
  have hb := b.clock.nanosecond_lt
  unfold nanoseconds at hnanoseconds
  rw [hdate] at hnanoseconds
  have hclock : a.clock = b.clock := Clock.eq_of_seconds (by omega) (by omega)
  cases a
  cases b
  simp_all

namespace OffsetTimestamp

theorem offsetText_inj {a b : OffsetTimestamp} (h : a.offsetText = b.offsetText) :
    a.offset = b.offset := by
  have hchars := congrArg String.toList h
  simp only [offsetText, String.toList_ofList, List.cons_append, List.append_assoc] at hchars
  obtain ⟨hsigns, hchars⟩ := List.cons.inj hchars
  obtain ⟨hhours, hchars⟩ :=
    Text.append_cons_inj (not_mem_padded rfl _ _) (not_mem_padded rfl _ _) hchars
  obtain ⟨hminutes, hseconds⟩ :=
    Text.append_cons_inj (not_mem_padded rfl _ _) (not_mem_padded rfl _ _) hchars
  have ha := a.offset_lt
  have hb := b.offset_lt
  unfold offsetLimit at ha hb
  have hlimit : pow10 2 = 100 := rfl
  have hh := padded_inj (by decide) (by omega) (by omega) hhours
  have hm := padded_inj (by decide) (by omega) (by omega) hminutes
  have hs := padded_inj (by decide) (by omega) (by omega) hseconds
  have hsign : a.offset < 0 ↔ b.offset < 0 := by
    by_cases hneg : a.offset < 0 <;> by_cases hneg' : b.offset < 0 <;>
      simp [hneg, hneg'] at hsigns ⊢
  omega

theorem length_offsetText (t : OffsetTimestamp) : t.offsetText.toList.length = 9 := by
  simp [offsetText, padded_length]

/-- An instant is told by its day and its offset. -/
theorem eq_of_describe {a b : OffsetTimestamp} (hsame : a.same b = true)
    (h : a.describe = b.describe) : a = b := by
  have hinstant : a.instant = b.instant := of_decide_eq_true hsame
  have hchars : a.place.describe.toList ++ ' ' :: a.offsetText.toList =
      b.place.describe.toList ++ ' ' :: b.offsetText.toList := by
    have hchars := congrArg String.toList h
    simpa [describe] using hchars
  obtain ⟨hplace, hoffsets⟩ := List.append_inj' hchars (by simp [length_offsetText])
  have hoffset := offsetText_inj (String.toList_injective (List.cons.inj hoffsets).2)
  have hspace : ∀ d : Date, ' ' ∉ d.text.toList := by
    intro d
    have hpadded : ∀ width n, ' ' ∉ padded width n := not_mem_padded rfl
    by_cases hneg : d.year < 0 <;> simp [Date.text, Date.chars, hpadded, hneg]
  have hdates : a.place.date.text.toList ++ ' ' :: a.place.clock.describe.toList =
      b.place.date.text.toList ++ ' ' :: b.place.clock.describe.toList := by
    simpa [Timestamp.describe] using hplace
  obtain ⟨hdate, -⟩ := Text.append_cons_inj (hspace _) (hspace _) hdates
  rw [Date.text, Date.text, String.toList_ofList, String.toList_ofList] at hdate
  have hnanoseconds : a.place.nanoseconds = b.place.nanoseconds := by
    unfold instant at hinstant
    rw [hoffset] at hinstant
    omega
  have hplaces := Timestamp.eq_of_nanoseconds (Date.chars_injective hdate) hnanoseconds
  cases a
  cases b
  simp_all

end OffsetTimestamp

theorem Clock.not_mem_fractionDigits {c : Char} (hc : c.isDigit = false) (t : Clock) :
    c ∉ t.fractionDigits := by
  have hpadded : ∀ d ∈ ((padded 9 t.nanosecond).reverse.dropWhile (· == '0')).reverse,
      d ∈ padded 9 t.nanosecond := by
    intro d hd
    rw [List.mem_reverse] at hd
    exact List.mem_reverse.mp ((List.dropWhile_sublist _).subset hd)
  unfold fractionDigits
  split
  · rintro hmem
    rw [List.mem_singleton.mp hmem] at hc
    exact Bool.false_ne_true hc.symm
  · exact fun hmem => not_mem_padded hc 9 t.nanosecond (hpadded c hmem)

theorem OffsetTimestamp.not_mem_describe (t : OffsetTimestamp) : ')' ∉ t.describe.toList := by
  have hpadded : ∀ width n, ')' ∉ padded width n := not_mem_padded rfl
  have hdate : ')' ∉ t.place.date.text.toList := by
    by_cases hneg : t.place.date.year < 0 <;> simp [Date.text, Date.chars, hpadded, hneg]
  have hclock : ')' ∉ t.place.clock.describe.toList := by
    simp [Clock.describe, hpadded, not_mem_digits, Clock.not_mem_fractionDigits]
  have hoffset : ')' ∉ t.offsetText.toList := by
    by_cases hneg : t.offset < 0 <;> simp [offsetText, hpadded, hneg]
  simp [describe, Timestamp.describe, hdate, hclock, hoffset]

end Calendar

/-! ### Values -/

namespace Scalar

/-- The declared places of a decimal. -/
def declared : Scalar → String
  | decimal _ precision scale => ", " ++ natText precision ++ ", " ++ natText scale
  | _ => ""

theorem toList_describe (x : Scalar) (us : List Char) :
    x.describe.toList ++ us = (x.type.variant ++ "(Some(").toList ++
      (x.content.toList ++ ')' :: (x.declared.toList ++ ')' :: us)) := by
  have hdescribe : x.describe =
      x.type.variant ++ "(Some(" ++ x.content ++ ")" ++ x.declared ++ ")" := by
    cases x <;> rfl
  rw [hdescribe]
  simp

theorem eq_of_describe {x y : Scalar} (hsame : x.same y = true) {us vs : List Char}
    (h : x.describe.toList ++ us = y.describe.toList ++ vs) : x = y := by
  rw [toList_describe, toList_describe] at h
  unfold same at hsame
  split at hsame
  · exact congrArg (binary .single) (Binary.eq_of_text hsame (List.append_cancel_left h))
  · exact congrArg (binary .double) (Binary.eq_of_text hsame (List.append_cancel_left h))
  · next a precision scale b precision' scale' =>
    -- the first parenthesis ends the number, and the declared places are behind it
    have hend : ∀ d : Decimal, ')' ∉ d.text.toList := fun d hmem => by
      simpa using (Decimal.mem_text rfl).mp hmem
    obtain ⟨htext, hrest⟩ :=
      Text.append_cons_inj (hend a) (hend b) (List.append_cancel_left h)
    obtain rfl := Decimal.eq_of_text hsame (String.toList_injective htext)
    obtain ⟨rfl, rfl⟩ : precision = precision' ∧ scale = scale' :=
      digits_pair_inj (by simpa [declared, natText] using hrest)
    rfl
  · next a b =>
    obtain ⟨htext, -⟩ := Text.append_cons_inj a.not_mem_describe b.not_mem_describe
      (List.append_cancel_left h)
    exact congrArg offsetTimestamp
      (OffsetTimestamp.eq_of_describe hsame (String.toList_injective htext))
  · exact of_decide_eq_true hsame

end Scalar

/-- The NULLs that are the same are those of decimals. -/
theorem SqlType.eq_of_describe {t u : SqlType} (hsame : t.sameNull u = true) {us vs : List Char}
    (h : t.describe.toList ++ us = u.describe.toList ++ vs) : t = u := by
  unfold sameNull at hsame
  split at hsame
  · next precision scale precision' scale' =>
    have hdescribe : ∀ precision scale : Nat, (decimal precision scale).describe =
        "Decimal(None, " ++ natText precision ++ ", " ++ natText scale ++ ")" := fun _ _ => rfl
    rw [hdescribe, hdescribe] at h
    obtain ⟨rfl, rfl⟩ : precision = precision' ∧ scale = scale' :=
      digits_pair_inj (by simpa [natText] using h)
    rfl
  · exact of_decide_eq_true hsame

namespace Value

mutual

/-- Of values that are the same, the text tells one in front of whatever follows. -/
theorem eq_of_describe : (v w : Value) → v.same w = true → ∀ {us vs : List Char},
    v.describe.toList ++ us = w.describe.toList ++ vs → v = w
  | .null t, .null u => fun hsame _ _ h => congrArg null (SqlType.eq_of_describe hsame h)
  | .scalar x, .scalar y => fun hsame _ _ h => congrArg scalar (Scalar.eq_of_describe hsame h)
  | .list xs t, .list ys u => by
    intro hsame us vs h
    simp only [same, Bool.and_eq_true, decide_eq_true_eq] at hsame
    obtain ⟨hitems, rfl⟩ := hsame
    have hopened : ∀ (items : List Value) (us : List Char),
        (list items t).describe.toList ++ us = "List(Some([".toList ++
          ((", ".intercalate (describeAll items)).toList ++
            ("]), ".toList ++ t.describe.toList ++ ")".toList ++ us)) := by
      intro items us
      simp [describe, bracketed]
    rw [hopened, hopened] at h
    rw [eq_of_describeAll xs ys hitems (List.append_cancel_left h)]
  | .null _, .scalar _ => by simp [same]
  | .null _, .list _ _ => by simp [same]
  | .scalar _, .null _ => by simp [same]
  | .scalar _, .list _ _ => by simp [same]
  | .list _ _, .null _ => by simp [same]
  | .list _ _, .scalar _ => by simp [same]

/-- The items of a list are told one after the other. -/
theorem eq_of_describeAll : (xs ys : List Value) → sameItems xs ys = true → ∀ {us vs : List Char},
    (", ".intercalate (describeAll xs)).toList ++ us =
      (", ".intercalate (describeAll ys)).toList ++ vs → xs = ys
  | [], [] => fun _ _ _ _ => rfl
  | [x], [y] => by
    intro hsame us vs h
    have hsame : x.same y = true := by simpa [sameItems] using hsame
    rw [eq_of_describe x y hsame (by simpa [describeAll] using h)]
  | x :: x' :: xs, y :: y' :: ys => by
    intro hsame us vs h
    obtain ⟨hfirst, hmore⟩ : x.same y = true ∧ sameItems (x' :: xs) (y' :: ys) = true := by
      simpa [sameItems] using hsame
    have hsplit : ∀ (v v' : Value) (items : List Value) (us : List Char),
        (", ".intercalate (describeAll (v :: v' :: items))).toList ++ us = v.describe.toList ++
          (", ".toList ++ ((", ".intercalate (describeAll (v' :: items))).toList ++ us)) := by
      intro v v' items us
      simp [describeAll]
    rw [hsplit, hsplit] at h
    obtain rfl := eq_of_describe x y hfirst h
    have hrest := List.append_cancel_left (List.append_cancel_left h)
    rw [eq_of_describeAll (x' :: xs) (y' :: ys) hmore hrest]
  | [], _ :: _ => by simp [sameItems]
  | _ :: _, [] => by simp [sameItems]
  | [_], _ :: _ :: _ => by simp [sameItems]
  | _ :: _ :: _, [_] => by simp [sameItems]

end

/-- Values that are the same have one text exactly if they are one value. -/
theorem describe_eq_iff {v w : Value} (hsame : v.same w = true) :
    v.describe = w.describe ↔ v = w := by
  constructor
  · intro h
    exact eq_of_describe v w hsame (congrArg (·.toList ++ ([] : List Char)) h)
  · rintro rfl
    rfl

end Value

end BoundSql
