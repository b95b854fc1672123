import BoundSql.Proofs.Descriptions
import BoundSql.Proofs.Transmission

/-!
# Rows of deleted entities

The row of an entity is held under the text of its key, and a delete by an id drops the row that is
held under the text of the id.  The two may be equal keys and different texts: integers are written
as numbers, whatever their width, but any other key is written as diagnostics show it, which tells
apart what is the same (`Value.describe_eq_iff`).  So a delete forgets the row if the id is the key
itself or both are integers, and in no other case (`Session.keyText_eq_iff`).

Where it forgets the row, the next update writes all columns but the key, unless an entity is
attached meanwhile.  Where it does not, the update writes what differs from a row that the database
no longer has (`Change.deleteById_forgets`).
-/

namespace BoundSql

/-! ### Keys -/

namespace Value

/-- Both are integers, of whatever width, with one number. -/
def SameNumber (v w : Value) : Prop := ∃ n, v.asInteger = some n ∧ w.asInteger = some n

/-- The values stand for one key: they are the same, or integers with one number. -/
def Denotes (v w : Value) : Prop := v.same w = true ∨ v.SameNumber w

theorem exists_of_asInteger {v : Value} {n : Int} (h : v.asInteger = some n) :
    ∃ t m, v = .scalar (.integer t m) := by
  unfold asInteger at h
  split at h
  · exact ⟨_, _, rfl⟩
  · cases h

theorem eq_of_asInteger {v w : Value} {n : Int} (hsame : v.same w = true)
    (h : v.asInteger = some n ∨ w.asInteger = some n) : v = w := by
  rcases h with h | h
  · obtain ⟨t, m, rfl⟩ := exists_of_asInteger h
    cases w with
    | scalar y => exact congrArg scalar (of_decide_eq_true hsame)
    | _ => cases hsame
  · obtain ⟨t, m, rfl⟩ := exists_of_asInteger h
    cases v with
    | scalar x =>
      cases x with
      | binary t' y => cases t' <;> exact congrArg scalar (of_decide_eq_true hsame)
      | _ => exact congrArg scalar (of_decide_eq_true hsame)
    | _ => cases hsame

end Value

namespace Session

theorem keyText_of_asInteger {v : Value} {n : Int} (h : v.asInteger = some n) :
    keyText v = Numeric.intText n := by
  rw [keyText, h]

theorem keyText_of_none {v : Value} (h : v.asInteger = none) : keyText v = v.describe := by
  rw [keyText, h]

/-- Values that stand for one key have one text if they are one value, or integers. -/
theorem keyText_eq_iff {v w : Value} (h : v.Denotes w) :
    keyText v = keyText w ↔ v = w ∨ v.SameNumber w := by
  constructor
  · intro htext
    rcases h with hsame | hnumber
    · left
      cases hv : v.asInteger with
      | some n => exact Value.eq_of_asInteger hsame (.inl hv)
      | none =>
        cases hw : w.asInteger with
        | some n => exact Value.eq_of_asInteger hsame (.inr hw)
        | none =>
          rw [keyText_of_none hv, keyText_of_none hw] at htext
          exact (Value.describe_eq_iff hsame).mp htext
    · exact .inr hnumber
  · rintro (rfl | ⟨n, hv, hw⟩)
    · rfl
    · rw [keyText_of_asInteger hv, keyText_of_asInteger hw]

theorem snapshotKey_eq_iff (s : Schema) {v w : Value} (h : v.Denotes w) :
    snapshotKey s v = snapshotKey s w ↔ v = w ∨ v.SameNumber w := by
  rw [← keyText_eq_iff h, snapshotKey, snapshotKey, Prod.mk.injEq]
  exact and_iff_right rfl

end Session

/-! ### No row held -/

/-- An entity of which no row is held is written with all its columns but the key. -/
theorem Entity.changes_none {s : Schema} (e : Entity s) :
    e.changes none = e.cells.filter (!·.1.primaryKey) := by
  unfold changes changedCells
  simp only [Option.any_none, Bool.not_false, Bool.and_true]
  show ((e.cells.zipIdx).filter ((!·.1.primaryKey) ∘ Prod.fst)).map Prod.fst = _
  rw [← List.filter_map, List.zipIdx_map_fst]

/-- Where no row is held, only attaching an entity begins to hold one. -/
theorem RowEvent.rowHeld_none {key : String × String} {events : List RowEvent}
    (h : ∀ other row, .attached other row ∈ events → other ≠ key) :
    rowHeld key none events = none := by
  induction events with
  | nil => rfl
  | cons x events ih =>
    have hrest := ih fun other row hmem => h other row (List.mem_cons_of_mem _ hmem)
    cases x with
    | attached other row => rw [rowHeld, if_neg (h other row List.mem_cons_self), hrest]
    | written other row => simp [rowHeld, hrest]
    | deleted other => simp [rowHeld, hrest]

namespace Change

variable (state : Service × Session)

theorem exists_attach_of_event (changes : List Change) {key : String × String} {row : List Value}
    (h : .attached key row ∈ events changes state) :
    ∃ r : Revision, .attach r ∈ changes ∧ r.key = key := by
  induction changes generalizing state with
  | nil => cases h
  | cons c more ih =>
    rcases List.mem_append.mp h with hmore | hfirst
    · obtain ⟨r, hr, hkey⟩ := ih _ hmore
      exact ⟨r, List.mem_cons_of_mem _ hr, hkey⟩
    · have hevent : c.event? state = some (.attached key row) := Option.mem_toList.mp hfirst
      unfold event? at hevent
      split at hevent
      · cases c with
        | attach r =>
          obtain ⟨rfl, -⟩ := RowEvent.attached.inj (Option.some.inj hevent)
          exact ⟨r, List.mem_cons_self, rfl⟩
        | update r =>
          dsimp only at hevent
          split at hevent <;> cases hevent
        | delete r => cases hevent
        | deleteById s id => cases hevent
      · cases hevent

/-- A delete by an id that stands for the key of an entity, spelled in whatever way.  Once it has
succeeded, no row is held for the entity if none was, or if the id is the key itself or both are
integers; otherwise the row stays.  A row that was dropped is not held again until an entity is
attached, and the next update of the entity then writes all its columns but the key.  As long as a
row is held, deleted or not, an update writes what differs from it. -/
theorem deleteById_forgets (s : Schema) (e : Entity s) (id : Value) (hid : id.Denotes e.key)
    {column : Column} (hkey : s.requireKey = .ok column)
    (hdeleted : (Act.deleteById s id state).1.isOk = true) :
    let key := Session.snapshotKey s e.key
    let after := (Act.deleteById s id state).2
    let forgotten := id = e.key ∨ id.SameNumber e.key
    (after.2.snapshot? key = none ↔ forgotten ∨ state.2.snapshot? key = none) ∧
    (¬ forgotten → after.2.snapshot? key = state.2.snapshot? key) ∧
    ∀ later : List Change,
      let now := applyAll later after
      let held := RowEvent.rowHeld key (after.2.snapshot? key) (events later after)
      now.2.snapshot? key = held ∧
      (forgotten → (∀ r : Revision, .attach r ∈ later → r.key ≠ key) → held = none) ∧
      ∀ e' : Entity s, e'.key = e.key →
        let sent := e'.changes held
        (held = none → sent = e'.cells.filter (!·.1.primaryKey)) ∧
        (sent = [] → Act.dispatched (Act.update s e') now = []) ∧
        (sent ≠ [] → ∃ statement,
          s.IsUpdate state.2.dialect sent (column, e'.key) statement ∧
            Act.dispatched (Act.update s e') now = [statement]) := by
  intro key after forgotten
  have hafter : after.2.snapshot? key = if Session.snapshotKey s id = key then none
      else state.2.snapshot? key := by
    show (Act.deleteById s id state).2.2.snapshot? key = _
    rw [snapshot?_deleteById, hdeleted]
    simp only [true_and]
  -- the row is held under the text of the key, and dropped under that of the id
  have hforgotten : Session.snapshotKey s id = key ↔ forgotten := Session.snapshotKey_eq_iff s hid
  refine ⟨?_, ?_, ?_⟩
  · rw [hafter, ← hforgotten]
    split <;> simp_all
  · intro hkept
    rw [hafter, if_neg (mt hforgotten.mp hkept)]
  · intro later now held
    have hheld : now.2.snapshot? key = held := snapshot?_applyAll after later key
    refine ⟨hheld, ?_, ?_⟩
    · intro hdropped hnone
      have hstart : after.2.snapshot? key = none := by
        rw [hafter, if_pos (hforgotten.mpr hdropped)]
      show RowEvent.rowHeld key (after.2.snapshot? key) (events later after) = none
      rw [hstart]
      -- of what may happen later, only attaching an entity brings a row back
      apply RowEvent.rowHeld_none
      intro other row hevent
      obtain ⟨r, hr, rfl⟩ := exists_attach_of_event after later hevent
      exact hnone r hr
    · intro e' hsame sent
      have hdialect : now.2.dialect = state.2.dialect :=
        (dialect_applyAll after later).trans (dialect_deleteById state s id)
      obtain ⟨hnothing, hsent⟩ := Revision.dispatched_changes ⟨s, e'⟩ now hkey
      have hkeys : Revision.key ⟨s, e'⟩ = key := congrArg (Session.snapshotKey s) hsame
      rw [hkeys, hheld] at hnothing hsent
      rw [hdialect] at hsent
      refine ⟨?_, hnothing, hsent⟩
      intro hnone
      show e'.changes held = _
      rw [hnone, e'.changes_none]

/-- The number of the item of tea, in another width. -/
def teaNumber : Value := .scalar (.integer .uint8 ⟨1, by decide, by decide⟩)

/-- The item of tea was deleted by its number. -/
def teaDeleted : Service × Session := (Act.deleteById .orderItem teaNumber Revision.holdsTea).2

/-- The item is sold as coffee afterwards, and written as if it were new. -/
theorem deleteById_forgets_tea :
    (teaNumber.Denotes Revision.tea.entity.key ∧
      Schema.orderItem.requireKey = .ok (Schema.keyColumn "id" Schema.int64 none) ∧
      (Act.deleteById .orderItem teaNumber Revision.holdsTea).1.isOk = true) ∧
    teaDeleted.2.snapshot? Revision.tea.key = none ∧
    ∃ statement,
      Schema.orderItem.IsUpdate .sqlite
        (Revision.coffee.entity.cells.filter (!·.1.primaryKey))
        (Schema.keyColumn "id" Schema.int64 none, Revision.coffee.entity.key) statement ∧
      Act.dispatched Revision.coffee.act teaDeleted = [statement] := by
  have hnumber : teaNumber.SameNumber Revision.tea.entity.key := ⟨1, rfl, rfl⟩
  have hkey : Schema.orderItem.requireKey =
      .ok (Schema.keyColumn "id" Schema.int64 none) := rfl
  have hdeleted : (Act.deleteById .orderItem teaNumber Revision.holdsTea).1.isOk = true := rfl
  have hsame : Revision.coffee.entity.key = Revision.tea.entity.key := rfl
  have hcells : Revision.coffee.entity.cells.filter (!·.1.primaryKey) ≠ [] :=
    List.cons_ne_nil _ _
  obtain ⟨hforgotten, -, hlater⟩ :=
    deleteById_forgets Revision.holdsTea .orderItem Revision.tea.entity teaNumber (.inr hnumber)
      hkey hdeleted
  obtain ⟨-, hnone, hupdate⟩ := hlater []
  obtain ⟨hall, -, hsent⟩ := hupdate Revision.coffee.entity hsame
  have hheld := hnone (.inr hnumber) fun r hr => absurd hr List.not_mem_nil
  rw [hall hheld] at hsent
  exact ⟨⟨.inr hnumber, hkey, hdeleted⟩, hforgotten.mpr (.inl (.inr hnumber)), hsent hcells⟩

/-- An entry of the ledger. -/
def entryOf (code : Numeric.Decimal) : Entity .ledger :=
  ⟨(code, .atUniversal BaseType.epoch, ⟨0⟩, none, ()), ()⟩

/-- A row is held although it was deleted, under a code that is the same number. -/
theorem deleted_row_stays :
    ¬ ∀ (state : Service × Session) (s : Schema) (e : Entity s) (id : Value) (column : Column),
      let attached := (Act.attachOld s e state).2
      let after := (Act.deleteById s id attached).2
      id.Denotes e.key → s.requireKey = .ok column →
      (Act.deleteById s id attached).1.isOk = true →
        after.2.snapshot? (Session.snapshotKey s e.key) = none ∧
          ∀ e' : Entity s, e'.key = e.key → e'.cells.filter (!·.1.primaryKey) ≠ [] →
            ∃ statement, s.IsUpdate state.2.dialect (e'.cells.filter (!·.1.primaryKey))
                (column, e'.key) statement ∧
              Act.dispatched (Act.update s e') after = [statement] := by
  intro hclaim
  have hsame : (Value.scalar (.decimal ⟨false, 100, 2, by decide, by decide⟩ 0 2)).Denotes
      (entryOf ⟨false, 10, 1, by decide, by decide⟩).key := .inl rfl
  have hkey : Schema.ledger.requireKey = .ok (Schema.keyColumn "code" (.base .decimal) none) := rfl
  obtain ⟨hnone, -⟩ := hclaim idle .ledger _ _ _ hsame hkey rfl
  revert hnone
  decide +kernel

end Change

end BoundSql
