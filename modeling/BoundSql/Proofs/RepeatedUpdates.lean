import BoundSql.Proofs.HeldRows
import BoundSql.Proofs.Sameness

/-!
# Updates made again

When the row of an entity was just attached, or just written in place of a row that was held, what
is left to write are the columns that are not the same as themselves, those with a NaN in them
(`Entity.changes_row`).  No update changes that (`Revision.changes_act`).  So an update that is made
again does nothing at all where there is no such column, and otherwise it sets these columns every
time (`Revision.act_again`).
-/

namespace BoundSql

namespace Entity

variable {s : Schema} (e : Entity s)

/-- The columns, apart from keys, that have a NaN in them, and their values. -/
def unsettled : List (Column × Value) := e.cells.filter fun (c, v) => !c.primaryKey && v.holdsNaN

/-- A row differs from itself in what is not the same as itself. -/
theorem changes_row : e.changes (some e.row) = e.unsettled := by
  have hself : e.changedCells (some e.row) =
      e.cells.zipIdx.filter ((fun (c, v) => !c.primaryKey && v.holdsNaN) ∘ Prod.fst) := by
    apply List.filter_congr
    rintro ⟨⟨c, v⟩, place⟩ hx
    obtain ⟨-, hrow⟩ := e.of_mem_cells hx
    simp [hrow, Value.same_self]
  rw [changes, hself, ← List.filter_map, List.zipIdx_map_fst]
  rfl

/-- What is the same as the value held has no NaN in it. -/
theorem unsettled_of_changes {held : Option (List Value)} (h : e.changes held = []) :
    e.unsettled = [] := by
  rw [unsettled, List.filter_eq_nil_iff]
  rintro ⟨c, v⟩ hcell
  have hnone := List.filter_eq_nil_iff.mp (List.map_eq_nil_iff.mp h)
  obtain ⟨place, hplace⟩ := List.mem_iff_getElem?.mp hcell
  have hsame := hnone ((c, v), place) (List.mem_zipIdx_iff_getElem?.mpr hplace)
  simp only [Bool.and_eq_true, Bool.not_eq_true'] at hsame ⊢
  rintro ⟨hkey, hnan⟩
  apply hsame ⟨hkey, ?_⟩
  rw [Bool.eq_false_iff]
  intro hany
  obtain ⟨old, -, hold⟩ := (Option.any_eq_true _ _).mp hany
  obtain ⟨w, -, hw⟩ := (Option.any_eq_true _ _).mp hold
  rw [Value.holdsNaN_of_same hw] at hnan
  cases hnan

end Entity

namespace Revision

theorem remembered_self (key : String × String) (row : List Value) (held : Option (List Value)) :
    remembered key [(key, row)] held = held.map fun _ => row := by
  cases held with
  | none => rfl
  | some old => simp [remembered]

/-- The row has just been attached, or just written in place of a row that was held. -/
inductive Settled (r : Revision) : Service × Session → Prop where
  | attached (before : Service × Session) : Settled r (Act.attachOld r.schema r.entity before).2
  | written (before : Service × Session) (hheld : before.2.snapshot? r.key ≠ none)
      (hok : (r.act before).1.isOk = true) : Settled r (r.act before).2

variable {r : Revision} {state : Service × Session}

/-- One update, whether it succeeds or fails, leaves the same to write. -/
theorem changes_act (h : r.entity.changes (state.2.snapshot? r.key) = r.entity.unsettled) :
    r.entity.changes ((r.act state).2.2.snapshot? r.key) = r.entity.unsettled := by
  rw [snapshot?_act, write?]
  split
  · apply (congrArg r.entity.changes (remembered_self _ _ _)).trans
    cases hheld : state.2.snapshot? r.key with
    | none =>
      rw [hheld] at h
      exact h
    | some old => exact r.entity.changes_row
  · exact (congrArg r.entity.changes (remembered_nil _ _)).trans h

theorem changes_applyAll (times : Nat)
    (h : r.entity.changes (state.2.snapshot? r.key) = r.entity.unsettled) :
    r.entity.changes ((applyAll (List.replicate times r) state).2.snapshot? r.key) =
      r.entity.unsettled := by
  induction times generalizing state with
  | zero => exact h
  | succ times ih => exact ih (changes_act h)

section

variable {column : Column} (hkey : r.schema.requireKey = .ok column)

include hkey

theorem write?_of_changes_nil (h : r.entity.changes (state.2.snapshot? r.key) = []) :
    r.write? state = none := by
  have hsent := (r.dispatched_changes state hkey).1 h
  simp [write?, hsent]

theorem write?_of_changes_ne_nil
    (h : r.entity.changes (state.2.snapshot? r.key) ≠ []) (hok : (r.act state).1.isOk = true) :
    r.write? state = some (r.key, r.row) := by
  obtain ⟨statement, -, hsent⟩ := (r.dispatched_changes state hkey).2 h
  simp [write?, hsent, hok]

theorem changes_of_settled (h : r.Settled state) :
    r.entity.changes (state.2.snapshot? r.key) = r.entity.unsettled := by
  cases h with
  | attached before =>
    have hheld : (before.2.hold r.key r.row).snapshot? r.key = some r.row := by
      rw [Session.snapshot?_hold, if_pos rfl]
    show r.entity.changes ((before.2.hold r.key r.row).snapshot? r.key) = _
    rw [hheld]
    exact r.entity.changes_row
  | written before hheld hok =>
    rw [snapshot?_act]
    by_cases hnone : r.entity.changes (before.2.snapshot? r.key) = []
    · rw [write?_of_changes_nil hkey hnone, r.entity.unsettled_of_changes hnone]
      exact (congrArg r.entity.changes (remembered_nil _ _)).trans hnone
    · obtain ⟨old, hold⟩ := Option.ne_none_iff_exists'.mp hheld
      rw [write?_of_changes_ne_nil hkey hnone hok, hold]
      exact (congrArg r.entity.changes (remembered_self _ _ _)).trans r.entity.changes_row

/-- An update that has nothing to write does nothing. -/
theorem act_of_changes_nil (h : r.entity.changes (state.2.snapshot? r.key) = []) :
    r.act state = (.ok .nothing, state) := by
  obtain ⟨service, session⟩ := state
  have hplaces : changedPlaces r.schema.columns (session.snapshot? r.key) r.entity.row = [] := by
    rw [r.entity.changedPlaces_eq, List.map_eq_nil_iff.mp h]
    rfl
  show Act.update r.schema r.entity (service, session) = _
  unfold Act.update
  rw [bind_apply, hkey]
  simp only [Run.ofExcept]
  rw [get_bind_apply]
  dsimp only
  unfold key at hplaces
  rw [hplaces]
  rfl

theorem applyAll_of_changes_nil
    (h : r.entity.changes (state.2.snapshot? r.key) = []) (times : Nat) :
    applyAll (List.replicate times r) state = state := by
  induction times with
  | zero => rfl
  | succ times ih =>
    show applyAll (List.replicate times r) (r.act state).2 = state
    rw [act_of_changes_nil hkey h]
    exact ih

end

/-- Directly after the row of an entity was attached, or written where a row was held, its updates
come to nothing if no column apart from keys has a NaN in it: each succeeds with no row affected,
sends nothing and leaves everything as it is, however many there are.  Otherwise each of them sends
one statement, which sets the columns with NaNs once more. -/
theorem act_again {column : Column} (hkey : r.schema.requireKey = .ok column)
    (hsettled : r.Settled state) (times : Nat) :
    let now := applyAll (List.replicate times r) state
    (r.entity.unsettled = [] →
        now = state ∧ r.act now = (.ok .nothing, now) ∧ Act.dispatched r.act now = []) ∧
      (r.entity.unsettled ≠ [] →
        ∃ statement,
          r.schema.IsUpdate state.2.dialect r.entity.unsettled (column, r.entity.key) statement ∧
          Act.dispatched r.act now = [statement]) := by
  intro now
  have hstart := changes_of_settled hkey hsettled
  have hleft : r.entity.changes (now.2.snapshot? r.key) = r.entity.unsettled :=
    changes_applyAll times hstart
  obtain ⟨hnone, hsome⟩ := r.dispatched_changes now hkey
  rw [hleft] at hnone hsome
  constructor
  · intro hsettled
    refine ⟨?_, ?_, hnone hsettled⟩
    · exact applyAll_of_changes_nil hkey (hstart.trans hsettled) times
    · exact act_of_changes_nil hkey (hleft.trans hsettled)
  · intro hunsettled
    have hdialect : now.2.dialect = state.2.dialect := dialect_applyAll state _
    rw [hdialect] at hsome
    exact hsome hunsettled

/-- An entry of the ledger whose rate is a NaN. -/
def unrated : Revision where
  schema := .ledger
  entity := ⟨(NativeType.initial (.base .decimal), NativeType.initial (.base .offsetTimestamp),
    .nan .double, none, ()), ()⟩

theorem act_again_unrated :
    ((tea.schema.requireKey = .ok (Schema.keyColumn "id" Schema.int64 none) ∧
        tea.Settled (Act.attachOld tea.schema tea.entity Change.idle).2) ∧
      tea.act (applyAll [tea, tea] (Act.attachOld tea.schema tea.entity Change.idle).2) =
        (.ok .nothing, (Act.attachOld tea.schema tea.entity Change.idle).2)) ∧
      (unrated.schema.requireKey = .ok (Schema.keyColumn "code" (.base .decimal) none) ∧
        unrated.Settled (Act.attachOld unrated.schema unrated.entity Change.idle).2) ∧
      ∃ statement,
        Schema.ledger.IsUpdate .sqlite
          [(.plain "rate" (.base (.binary .double)), .scalar (.binary .double (.nan .double)))]
          (Schema.keyColumn "code" (.base .decimal) none, unrated.entity.key) statement ∧
        Act.dispatched unrated.act (applyAll [unrated, unrated]
          (Act.attachOld unrated.schema unrated.entity Change.idle).2) = [statement] := by
  have htea : tea.schema.requireKey = .ok (Schema.keyColumn "id" Schema.int64 none) := rfl
  have hrest := Settled.attached (r := tea) Change.idle
  have hunrated : unrated.schema.requireKey =
      .ok (Schema.keyColumn "code" (.base .decimal) none) := rfl
  have hleft := Settled.attached (r := unrated) Change.idle
  obtain ⟨hnothing, -⟩ := act_again htea hrest 2
  obtain ⟨-, hsent⟩ := act_again hunrated hleft 2
  obtain ⟨hnow, hsame, -⟩ := hnothing rfl
  have hcells : unrated.entity.unsettled =
      [(.plain "rate" (.base (.binary .double)), .scalar (.binary .double (.nan .double)))] := rfl
  rw [hcells] at hsent
  refine ⟨⟨⟨htea, hrest⟩, ?_⟩, ⟨hunrated, hleft⟩, hsent (List.cons_ne_nil _ _)⟩
  exact hsame.trans (congrArg (Prod.mk _) hnow)

/-- A row that is attached is sent by the update that follows, with nothing changed. -/
theorem unchanged_row_sent :
    ¬ ∀ (r : Revision) (column : Column) (state : Service × Session) (times : Nat),
      r.schema.requireKey = .ok column → r.Settled state →
        (r.act (applyAll (List.replicate times r) state)).1 = .ok .nothing ∧
          Act.dispatched r.act (applyAll (List.replicate times r) state) = [] := by
  intro hclaim
  obtain ⟨-, hnone⟩ := hclaim unrated _ _ 0 rfl (.attached Change.idle)
  have hlength := congrArg List.length hnone
  revert hlength
  decide +kernel

end Revision

end BoundSql
