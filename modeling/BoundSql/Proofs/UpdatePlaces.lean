import BoundSql.Proofs.Snapshots
import BoundSql.Proofs.UpdateStatement

/-!
# Updates of columns at any places

An update is written for places of columns, and those beyond the last column are passed over
(`Schema.assignments_filter`).  What is left is set in the order of the places, each column to the
value of the entity, and the row is picked by the key under a name of its own, also where the key is
set itself (`Entity.update_places`).

A comma goes before an assignment that is not for the first place.  Where the first place is passed
over, this is so for every assignment, and the clause starts with a comma
(`Entity.comma_behind_set`).
-/

namespace BoundSql

namespace Schema

variable (d : Dialect) (columns : List Column)

/-- Behind the first place, it makes no difference where places are passed over. -/
theorem assignments_filter_rest (row : List Value) (names : Names) (places : List Nat) :
    assignments d columns row names false (places.filter (· < columns.length)) =
      assignments d columns row names false places := by
  induction places generalizing row names with
  | nil => rfl
  | cons place places ih =>
    by_cases hplace : place < columns.length
    · rw [List.filter_cons_of_pos (by simpa using hplace)]
      simp only [assignments, List.getElem?_eq_getElem hplace, ih]
    · rw [List.filter_cons_of_neg (by simpa using hplace)]
      simp only [assignments, List.getElem?_eq_none (Nat.le_of_not_lt hplace), ih]

/-- The places that are passed over leave a trace if the first one is among them. -/
theorem assignments_filter (row : List Value) (names : Names) (places : List Nat) :
    assignments d columns row names true places =
      assignments d columns row names (places.head?.all (· < columns.length))
        (places.filter (· < columns.length)) := by
  cases places with
  | nil => rfl
  | cons place places =>
    by_cases hplace : place < columns.length
    · rw [List.filter_cons_of_pos (by simpa using hplace)]
      simp only [assignments, List.getElem?_eq_getElem hplace, assignments_filter_rest,
        List.head?_cons, Option.all_some, hplace, decide_true]
    · rw [List.filter_cons_of_neg (by simpa using hplace)]
      simp only [assignments, List.getElem?_eq_none (Nat.le_of_not_lt hplace),
        assignments_filter_rest, List.head?_cons, Option.all_some, hplace, decide_false]

end Schema

namespace Entity

variable {s : Schema} (e : Entity s)

/-- The cells at the places that are not beyond the last column, with these places. -/
def cellsAt (places : List Nat) : List ((Column × Value) × Nat) :=
  places.filterMap fun place => e.cells[place]?.map (·, place)

theorem length_cells : e.cells.length = s.columns.length := by
  rw [cells, List.length_zip, e.length_row, Nat.min_self]

theorem map_fst_cellsAt (places : List Nat) :
    (e.cellsAt places).map (·.1) = places.filterMap (e.cells[·]?) := by
  unfold cellsAt
  rw [List.map_filterMap]
  congr 1
  funext place
  rw [Option.map_map]
  exact congrFun Option.map_id _

theorem map_snd_cellsAt (places : List Nat) :
    (e.cellsAt places).map (·.2) = places.filter (· < s.columns.length) := by
  unfold cellsAt
  rw [List.map_filterMap, ← List.filterMap_eq_filter]
  congr 1
  funext place
  by_cases hplace : place < s.columns.length
  · simp [hplace, List.getElem?_eq_getElem (e.length_cells ▸ hplace), Option.guard]
  · simp [hplace, List.getElem?_eq_none (e.length_cells ▸ Nat.le_of_not_lt hplace), Option.guard]

theorem of_mem_cellsAt {places : List Nat} {x : (Column × Value) × Nat}
    (hx : x ∈ e.cellsAt places) :
    s.columns[x.2]? = some x.1.1 ∧ e.row[x.2]? = some x.1.2 := by
  obtain ⟨place, -, hplace⟩ := List.mem_filterMap.mp hx
  obtain ⟨cell, hcell, rfl⟩ := Option.map_eq_some_iff.mp hplace
  exact List.getElem?_zip_eq_some.mp hcell

variable (d : Dialect)

/-- What is set are the cells at the places, but for a comma that depends on the first place. -/
theorem update_eq_updateOf {column : Column} (hkey : s.requireKey = .ok column) (places : List Nat)
    (hnodup : places.Nodup) :
    s.update d e places = .ok (s.updateOf d (places.head?.all (· < s.columns.length))
      (places.filterMap (e.cells[·]?)) (column, e.key)) := by
  have hplaces : ((e.cellsAt places).map (·.2)).Nodup := by
    rw [map_snd_cellsAt]
    exact hnodup.filter _
  have hsets := Assignment.assignments_eq d s.columns e.row .none
    (places.head?.all (· < s.columns.length)) (e.cellsAt places)
    (fun x hx => (e.of_mem_cellsAt hx).1) (fun x hx => (e.of_mem_cellsAt hx).2) hplaces
  rw [map_snd_cellsAt, map_fst_cellsAt, ← Schema.assignments_filter] at hsets
  unfold Schema.update
  rw [hkey, hsets]
  rfl

/-- An update of the columns at some places, of which none comes twice, passes over the places
beyond the last column.  At the others it sets each column to the value of the entity, in the order
of the places, with a comma between each two assignments, and it picks the row by the key of the
entity; the names are different from each other.  The assignments start with a comma exactly if the
first place is passed over and another one is not. -/
theorem update_places (e : Entity s) {column : Column} (hkey : s.requireKey = .ok column)
    (places : List Nat) (hnodup : places.Nodup) :
    ∃ f, s.update d e places = .ok f ∧
      ∃ (sets : List Assignment) (pick : Assignment),
        sets.map Assignment.cell = places.filterMap (e.cells[·]?) ∧
        pick.cell = (column, e.key) ∧
        f.bindings = (sets ++ [pick]).map (·.param) ∧
        (f.bindings.map (·.name)).Nodup ∧
        d.render f = "UPDATE " ++ d.quote s.table ++ " SET " ++
          (if (∃ first ∈ places.head?, s.columns.length ≤ first) ∧
            (∃ place ∈ places, place < s.columns.length) then ", " else "") ++
          ", ".intercalate (sets.map (·.text d)) ++ " WHERE " ++ pick.text d := by
  obtain ⟨sets, pick, hcells, hpick, hnames, hbindings, hrender⟩ := s.statement_updateOf d
    (places.head?.all (· < s.columns.length)) (places.filterMap (e.cells[·]?)) (column, e.key)
  refine ⟨_, e.update_eq_updateOf d hkey places hnodup, sets, pick, hcells, hpick, hbindings, ?_,
    ?_⟩
  · rw [hbindings, List.map_map]
    show ((sets ++ [pick]).map (·.param.name)).Nodup
    rw [hnames]
    exact (Names.none.claimAll_fresh _).2.1
  · -- an assignment starts with a comma unless it is the first one of a list whose first place
    -- is not passed over; without assignments there is no comma either
    have hcomma : (places.head?.all (· < s.columns.length) || sets.isEmpty) = true ↔
        ¬ ((∃ first ∈ places.head?, s.columns.length ≤ first) ∧
          ∃ place ∈ places, place < s.columns.length) := by
      have hempty : sets.isEmpty = true ↔ ∀ place ∈ places, s.columns.length ≤ place := by
        rw [List.isEmpty_iff, ← List.map_eq_nil_iff (f := Assignment.cell), hcells,
          List.filterMap_eq_nil_iff]
        simp only [List.getElem?_eq_none_iff, e.length_cells]
      rw [Bool.or_eq_true, hempty, not_and_or]
      refine or_congr ?_ ?_
      · cases places.head? <;> simp
      · simp only [not_exists, not_and, Nat.not_lt]
    rw [hrender]
    simp only [hcomma, ite_not]

/-- The key of the item is set as well, between places that are passed over. -/
theorem update_places_keyAmong :
    let item := Revision.tea.entity
    let id := Schema.keyColumn "id" Schema.int64 none
    (Schema.orderItem.requireKey = .ok id ∧ [3, 9, 0, 4].Nodup) ∧
      ∃ f, Schema.orderItem.update .sqlite item [3, 9, 0, 4] = .ok f ∧
        ∃ (sets : List Assignment) (pick : Assignment),
          sets.map Assignment.cell =
            [(.plain "quantity" Schema.int32, .scalar (.integer .int32 ⟨2, by decide, by decide⟩)),
              (id, item.key)] ∧
          pick.cell = (id, item.key) ∧ (f.bindings.map (·.name)).Nodup ∧
          Dialect.sqlite.render f = "UPDATE \x60order_items\x60 SET " ++
            ", ".intercalate (sets.map (·.text .sqlite)) ++ " WHERE " ++ pick.text .sqlite := by
  intro item id
  have hkey : Schema.orderItem.requireKey = .ok id := rfl
  have hnodup : [3, 9, 0, 4].Nodup := by decide
  obtain ⟨f, hf, sets, pick, hcells, hpick, -, hnames, hrender⟩ :=
    update_places .sqlite item hkey [3, 9, 0, 4] hnodup
  refine ⟨⟨hkey, hnodup⟩, f, hf, sets, pick, hcells.trans rfl, hpick, hnames, ?_⟩
  exact hrender

/-- Passing over the first place leaves a comma behind `SET`. -/
theorem comma_behind_set :
    ¬ ∀ (s : Schema) (d : Dialect) (e : Entity s) (column : Column) (places : List Nat),
      s.requireKey = .ok column → places.Nodup →
        ∃ f, s.update d e places = .ok f ∧
          s.IsUpdate d (places.filterMap (e.cells[·]?)) (column, e.key)
            (d.render f, f.bindings) := by
  intro hclaim
  obtain ⟨f, hf, sets, pick, hcells, hpick, -, hstatement⟩ := hclaim .orderItem .sqlite
    Revision.tea.entity _ [9, 2] rfl (by decide)
  obtain ⟨a, rfl, ha⟩ : ∃ a, sets = [a] ∧ a.column.name = "product" := by
    obtain ⟨a, rest, rfl, hcell, hrest⟩ := List.map_eq_cons_iff.mp hcells
    obtain rfl := List.map_eq_nil_iff.mp hrest
    exact ⟨a, rfl, congrArg (·.1.name) hcell⟩
  have hcomma : (Dialect.sqlite.render f).toList[25]? = some ',' := by
    cases hf
    decide +kernel
  have hquote := congrArg (fun statement => statement.1.toList[25]?) hstatement
  rw [List.map_singleton, String.intercalate_singleton, Assignment.text, ha, hcomma] at hquote
  simp [Dialect.quote, Dialect.doubled, Dialect.sqlite, Schema.orderItem] at hquote

end Entity

end BoundSql
