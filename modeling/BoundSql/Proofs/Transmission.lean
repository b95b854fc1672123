import BoundSql.Proofs.HeldRows

/-!
# What an update transmits

An update sends the columns whose values are not the same as those held, and values are the same
when they say the same: numbers that are equal, timestamps that name one instant.  What is not sent
is therefore what the database has already, up to the form in which it is written
(`Value.Restates`): the scale of a decimal and the sign of a zero, the offset of a timestamp.
Everything else arrives as the entity has it (`Entity.update_transmits`).  A change of form alone
does not arrive (`Entity.change_of_scale_not_sent`).
-/

namespace BoundSql

open Numeric Calendar

/-! ### Values in another form -/

/-- The values are identical, or say the same in forms that are different: decimals that are the
same number, zeros of a float, timestamps that name the same instant, and lists of such values. -/
inductive Value.Restates : Value → Value → Prop where
  | refl (v : Value) : Restates v v
  | decimal {a b : Decimal} (h : a.signed * pow10 b.scale = b.signed * pow10 a.scale)
    (precision scale precision' scale' : Nat) :
    Restates (.scalar (.decimal a precision scale)) (.scalar (.decimal b precision' scale'))
  | zero {t : FloatType} {x y : Binary t} (hx : x.isZero = true) (hy : y.isZero = true) :
    Restates (.scalar (.binary t x)) (.scalar (.binary t y))
  | instant {a b : OffsetTimestamp} (h : a.instant = b.instant) :
    Restates (.scalar (.offsetTimestamp a)) (.scalar (.offsetTimestamp b))
  | list {xs ys : List Value} (h : List.Forall₂ Restates xs ys) (item : SqlType) :
    Restates (.list xs item) (.list ys item)

namespace Value

theorem null_of_null_same {type : SqlType} {v : Value} (h : (Value.null type).same v = true) :
    ∃ other, v = .null other := by
  cases v with
  | null other => exact ⟨other, rfl⟩
  | _ => cases h

theorem null_of_same_null {type : SqlType} {v : Value} (h : v.same (.null type) = true) :
    ∃ other, v = .null other := by
  cases v with
  | null other => exact ⟨other, rfl⟩
  | _ => cases h

theorem restates_of_binary {t : FloatType} {x y : Binary t} (h : x.same y = true) :
    Restates (.scalar (.binary t x)) (.scalar (.binary t y)) := by
  simp only [Binary.same, Bool.and_eq_true, Bool.or_eq_true, decide_eq_true_eq] at h
  rcases h.2 with rfl | ⟨hx, hy⟩
  · exact .refl _
  · exact .zero hx hy

theorem restates_of_scalar {a b : Scalar} (h : a.same b = true) :
    Restates (.scalar a) (.scalar b) := by
  unfold Scalar.same at h
  split at h
  · exact restates_of_binary h
  · exact restates_of_binary h
  · exact .decimal (of_decide_eq_true h) _ _ _ _
  · exact .instant (of_decide_eq_true h)
  · obtain rfl := of_decide_eq_true h
    exact .refl _

end Value

namespace NativeType

/-- A missing value of a type is the NULL of that type. -/
theorem eq_empty_of_encode_null {t : NativeType} {x : t.Carrier} {type : SqlType}
    (h : t.encode x = .null type) : t.encode x = t.empty := by
  have htype : type = t.sqlType := by
    induction t with
    | base b => cases h
    | option t ih =>
      cases x with
      | none =>
        cases h
        rfl
      | some x => exact ih h
    | list t ih => cases h
  rw [h, htype]
  rfl

/-- Values of one type that are the same. -/
theorem restates_of_same (t : NativeType) (x y : t.Carrier)
    (h : (t.encode x).same (t.encode y) = true) : (t.encode x).Restates (t.encode y) := by
  induction t with
  | base b => exact Value.restates_of_scalar h
  | option t ih =>
    cases x with
    | none =>
      cases y with
      | none => exact .refl _
      | some y =>
        obtain ⟨type, hy⟩ := Value.null_of_null_same h
        have hempty : t.encode y = t.empty := eq_empty_of_encode_null hy
        show t.empty.Restates (t.encode y)
        rw [hempty]
        exact .refl _
    | some x =>
      cases y with
      | none =>
        obtain ⟨type, hx⟩ := Value.null_of_same_null h
        have hempty : t.encode x = t.empty := eq_empty_of_encode_null hx
        show (t.encode x).Restates t.empty
        rw [hempty]
        exact .refl _
      | some y => exact ih x y h
  | list t ih =>
    have hitems : ∀ xs ys : List t.Carrier,
        Value.sameItems (xs.map t.encode) (ys.map t.encode) = true →
        List.Forall₂ Value.Restates (xs.map t.encode) (ys.map t.encode) := by
      intro xs
      induction xs with
      | nil =>
        intro ys hys
        cases ys with
        | nil => exact .nil
        | cons y ys => cases hys
      | cons x xs ihs =>
        intro ys hys
        cases ys with
        | nil => cases hys
        | cons y ys =>
          simp only [List.map_cons, Value.sameItems, Bool.and_eq_true] at hys
          exact .cons (ih x y hys.1) (ihs ys hys.2)
    have hsame : Value.same (.list (x.map t.encode) t.sqlType)
        (.list (y.map t.encode) t.sqlType) = true := h
    simp only [Value.same, Bool.and_eq_true] at hsame
    exact .list (hitems x y hsame.1) _

end NativeType

theorem Record.restates_of_same {ts : List NativeType} (r r' : Record ts) (place : Nat)
    {v w : Value} (hv : r.encode[place]? = some v) (hw : r'.encode[place]? = some w)
    (h : v.same w = true) : v.Restates w := by
  induction ts generalizing place with
  | nil => cases hv
  | cons t ts ih =>
    cases place with
    | zero =>
      cases hv
      cases hw
      exact t.restates_of_same r.1 r'.1 h
    | succ place => exact ih r.2 r'.2 place hv hw

/-! ### Rows after an update -/

namespace Entity

variable {s : Schema}

/-- The row with the values at some places replaced. -/
def patched (row : List Value) (sent : List ((Column × Value) × Nat)) : List Value :=
  sent.foldl (fun row x => row.set x.2 x.1.2) row

theorem patched_of_not_mem {row : List Value} {sent : List ((Column × Value) × Nat)} {place : Nat}
    (h : place ∉ sent.map (·.2)) : (patched row sent)[place]? = row[place]? := by
  induction sent generalizing row with
  | nil => rfl
  | cons x sent ih =>
    rw [List.map_cons, List.mem_cons, not_or] at h
    show (patched (row.set x.2 x.1.2) sent)[place]? = _
    rw [ih h.2, List.getElem?_set_ne (Ne.symm h.1)]

/-- What is written agrees with the row it is taken from. -/
theorem patched_of_mem {row new : List Value} {sent : List ((Column × Value) × Nat)} {place : Nat}
    (hsent : ∀ x ∈ sent, new[x.2]? = some x.1.2) (hlength : row.length = new.length)
    (h : place ∈ sent.map (·.2)) : (patched row sent)[place]? = new[place]? := by
  induction sent generalizing row with
  | nil => cases h
  | cons x sent ih =>
    show (patched (row.set x.2 x.1.2) sent)[place]? = _
    have hrest : ∀ y ∈ sent, new[y.2]? = some y.1.2 := fun y hy =>
      hsent y (List.mem_cons_of_mem _ hy)
    by_cases hmem : place ∈ sent.map (·.2)
    · exact ih hrest (by simpa using hlength) hmem
    · obtain rfl : place = x.2 := by
        rcases List.mem_cons.mp h with h | h
        · exact h
        · exact absurd h hmem
      have hnew := hsent x List.mem_cons_self
      obtain ⟨hin, -⟩ := List.getElem?_eq_some_iff.mp hnew
      rw [patched_of_not_mem hmem, List.getElem?_set_self (by omega), hnew]

/-- Of two entities of one key the old one is attached and the new one is updated.  The columns that
are sent get the values of the new one; the others have them already, up to their form. -/
theorem update_transmits (old new : Entity s) {column : Column}
    (hkey : s.requireKey = .ok column) (hsame : old.key = new.key) (state : Service × Session) :
    let attached := (Act.attachOld s old state).2
    let sent := new.changedCells (some old.row)
    (∀ x ∈ sent, s.columns[x.2]? = some x.1.1 ∧ x.1.1.primaryKey = false) ∧
      (sent = [] → Act.dispatched (Act.update s new) attached = []) ∧
      (sent ≠ [] →
        ∃ statement, s.IsUpdate state.2.dialect (sent.map (·.1)) (column, new.key) statement ∧
          Act.dispatched (Act.update s new) attached = [statement]) ∧
      ∀ place c v w, s.columns[place]? = some c → c.primaryKey = false →
        (patched old.row sent)[place]? = some v → new.row[place]? = some w →
          (place ∈ sent.map (·.2) → v = w) ∧
            (place ∉ sent.map (·.2) → old.row[place]? = some v ∧ v.Restates w) := by
  intro attached sent
  let r : Revision := ⟨s, new⟩
  have hheld : attached.2.snapshot? r.key = some old.row := by
    show (state.2.hold (Session.snapshotKey s old.key) old.row).snapshot?
      (Session.snapshotKey s new.key) = _
    rw [Session.snapshot?_hold, hsame, if_pos rfl]
  obtain ⟨hnone, hsome⟩ := r.dispatched_changes attached hkey
  rw [hheld] at hnone hsome
  refine ⟨?_, ?_, ?_, ?_⟩
  · intro x hx
    obtain ⟨hmem, hchanged⟩ := List.mem_filter.mp hx
    refine ⟨(new.of_mem_cells hmem).1, ?_⟩
    simp only [Bool.and_eq_true, Bool.not_eq_true'] at hchanged
    exact hchanged.1
  · intro hempty
    apply hnone
    show sent.map (·.1) = []
    rw [hempty]
    rfl
  · intro hchanges
    exact hsome fun h => hchanges (List.map_eq_nil_iff.mp h)
  · intro place c v w hc hprimary hv hw
    constructor
    · intro hmem
      have hvalues : ∀ x ∈ new.changedCells (some old.row), new.row[x.2]? = some x.1.2 :=
        fun x hx => (new.of_mem_cells (List.mem_of_mem_filter hx)).2
      have hlength : old.row.length = new.row.length := by rw [old.length_row, new.length_row]
      rw [patched_of_mem hvalues hlength hmem, hw] at hv
      exact (Option.some.inj hv).symm
    · intro hmem
      rw [patched_of_not_mem hmem] at hv
      refine ⟨hv, Record.restates_of_same old.stored new.stored place hv hw ?_⟩
      -- a place that is not sent was filtered out, and not because it is a key
      by_contra hne
      have hdiffers : v.same w = false := by simpa using hne
      apply hmem
      have hcell : ((c, w), place) ∈ new.cells.zipIdx :=
        List.mem_zipIdx_iff_getElem?.mpr (List.getElem?_zip_eq_some.mpr ⟨hc, hw⟩)
      have hchanged : ((c, w), place) ∈ new.changedCells (some old.row) := by
        refine List.mem_filter.mpr ⟨hcell, ?_⟩
        simp [hprimary, hv, hdiffers]
      exact List.mem_map.mpr ⟨_, hchanged, rfl⟩

/-- An order of a given status and amount. -/
def orderOf (status : Integer .int32) (amount : Decimal) : Entity .order :=
  ⟨(⟨5, by decide, by decide⟩, status, "ann", amount, none, BaseType.epoch, ()), (false, ())⟩

/-- An order of `1.0`. -/
def placed : Entity .order :=
  orderOf ⟨0, by decide, by decide⟩ ⟨false, 10, 1, by decide, by decide⟩

/-- The order with its amount written as `1.00`. -/
def rewritten : Entity .order :=
  orderOf ⟨0, by decide, by decide⟩ ⟨false, 100, 2, by decide, by decide⟩

/-- The order with its amount written as `1.00`, and with another status. -/
def shipped : Entity .order :=
  orderOf ⟨1, by decide, by decide⟩ ⟨false, 100, 2, by decide, by decide⟩

theorem update_transmits_status :
    (Schema.order.requireKey = .ok (Schema.keyColumn "id" Schema.int64 (some true)) ∧
      placed.key = shipped.key) ∧
      ∃ statement,
        Schema.order.IsUpdate .sqlite
          [(.plain "status" Schema.int32,
            .scalar (.integer .int32 ⟨1, by decide, by decide⟩))]
          (Schema.keyColumn "id" Schema.int64 (some true), shipped.key) statement ∧
        Act.dispatched (Act.update .order shipped) (Act.attachOld .order placed Change.idle).2 =
          [statement] := by
  have hkey : Schema.order.requireKey =
      .ok (Schema.keyColumn "id" Schema.int64 (some true)) := rfl
  have hsame : placed.key = shipped.key := rfl
  obtain ⟨-, -, hsent, -⟩ := update_transmits placed shipped hkey hsame Change.idle
  exact ⟨⟨hkey, hsame⟩, hsent (List.cons_ne_nil _ _)⟩

/-- Nothing is sent for the amount that is written in another way, so the old one stays. -/
theorem change_of_scale_not_sent :
    let attached := (Act.attachOld .order placed Change.idle).2
    placed.key = rewritten.key ∧ (Act.update .order rewritten attached).1.isOk = true ∧
      Act.dispatched (Act.update .order rewritten) attached = [] ∧
      Schema.order.columns[3]?.map (·.primaryKey) = some false ∧
      placed.row[3]? ≠ rewritten.row[3]? := by
  refine ⟨rfl, rfl, rfl, rfl, ?_⟩
  intro h
  cases h

end Entity

end BoundSql
