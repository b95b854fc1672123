import BoundSql.Proofs.Claiming
import BoundSql.Proofs.Rendering
import BoundSql.Session.Tracking

/-!
# The statement of an update

An update is written from the places of the columns that have changed.  The columns and values at
those places are the cells of the entity that differ from the row held (`Entity.changes`), in the
order of the columns, and the statement sets exactly these to their values and picks the row by its
key (`Schema.update_changes`).
-/

namespace BoundSql

/-! ### Cells with parameters -/

/-- A column and the parameter for it. -/
structure Assignment where
  column : Column
  param : Binding

namespace Assignment

variable (d : Dialect)

def cell (a : Assignment) : Column × Value := (a.column, a.param.value)

/-- `c = :c` -/
def text (a : Assignment) : String :=
  d.quote a.column.name ++ " = " ++ d.marker a.param.name a.param.value

/-- Parameters for cells, named after their fields. -/
def ofCells (names : Names) : List (Column × Value) → List Assignment
  | [] => []
  | (c, v) :: cells => ⟨c, ⟨(names.claim c.field).1, v⟩⟩ :: ofCells (names.claim c.field).2 cells

variable (names : Names) (cells : List (Column × Value))

theorem cells_ofCells : (ofCells names cells).map cell = cells := by
  induction cells generalizing names with
  | nil => rfl
  | cons x cells ih =>
    obtain ⟨c, v⟩ := x
    exact congrArg (List.cons _) (ih _)

theorem names_ofCells :
    (ofCells names cells).map (·.param.name) = (names.claimAll (cells.map (·.1.field))).1 := by
  induction cells generalizing names with
  | nil => rfl
  | cons x cells ih => exact congrArg (List.cons _) (ih _)

theorem ofCells_append (more : List (Column × Value)) :
    ofCells names (cells ++ more) =
      ofCells names cells ++ ofCells (names.claimAll (cells.map (·.1.field))).2 more := by
  induction cells generalizing names with
  | nil => rfl
  | cons x cells ih => exact congrArg (List.cons _) (ih _)

/-- The fragment of assignments, with commas between them. -/
def fragment (first : Bool) : List Assignment → Fragment
  | [] => .empty
  | a :: rest =>
    .text ((if first then "" else ", ") ++ d.quote a.column.name ++ " = ") ++
      .param a.param.name a.param.value ++ fragment false rest

theorem bindings_fragment (first : Bool) (as : List Assignment) :
    (fragment d first as).bindings = as.map (·.param) := by
  induction as generalizing first with
  | nil => rfl
  | cons a as ih => simp [fragment, ih]

variable {bindings : List Binding} {as : List Assignment}

theorem render_fragment_cons (first : Bool) (a : Assignment) (as : List Assignment)
    (has : ∀ x ∈ a :: as, Fragment.valueOf bindings x.param.name = x.param.value) :
    Fragment.render d.marker ⟨(fragment d first (a :: as)).tokens, bindings⟩ =
      (if first then "" else ", ") ++ ", ".intercalate ((a :: as).map (·.text d)) := by
  have hstep : ∀ (first : Bool) (a : Assignment) (as : List Assignment),
      Fragment.valueOf bindings a.param.name = a.param.value →
      Fragment.render d.marker ⟨(fragment d first (a :: as)).tokens, bindings⟩ =
        (if first then "" else ", ") ++ a.text d ++
          Fragment.render d.marker ⟨(fragment d false as).tokens, bindings⟩ := by
    intro first a as ha
    rw [fragment, Fragment.render_extend, Fragment.render_extend, Fragment.render_text_tokens,
      Fragment.render_param_tokens, ha]
    simp only [text, String.append_assoc]
  induction as generalizing first a with
  | nil =>
    rw [hstep first a [] (has a List.mem_cons_self)]
    simp only [List.map_cons, List.map_nil, String.intercalate_singleton]
    exact String.append_empty
  | cons b as ih =>
    rw [hstep first a _ (has a List.mem_cons_self),
      ih false b fun x hx => has x (List.mem_cons_of_mem _ hx)]
    simp [String.intercalate_cons_cons, String.append_assoc]

/-- Where a comma goes before the first assignment too, the list starts with it. -/
theorem render_fragment (first : Bool) (as : List Assignment)
    (has : ∀ a ∈ as, Fragment.valueOf bindings a.param.name = a.param.value) :
    Fragment.render d.marker ⟨(fragment d first as).tokens, bindings⟩ =
      (if first || as.isEmpty then "" else ", ") ++ ", ".intercalate (as.map (·.text d)) := by
  cases as with
  | nil => simp [fragment, Fragment.render]
  | cons a as =>
    rw [render_fragment_cons d first a as has]
    simp

/-- The places are different, so a value that is taken from the row is not asked for again. -/
theorem assignments_eq (columns : List Column) (row : List Value) (names : Names) (first : Bool)
    (sets : List ((Column × Value) × Nat)) (hcolumns : ∀ x ∈ sets, columns[x.2]? = some x.1.1)
    (hrow : ∀ x ∈ sets, row[x.2]? = some x.1.2) (hnodup : (sets.map (·.2)).Nodup) :
    Schema.assignments d columns row names first (sets.map (·.2)) =
      (fragment d first (ofCells names (sets.map (·.1))),
        (names.claimAll ((sets.map (·.1)).map (·.1.field))).2) := by
  induction sets generalizing row names first with
  | nil => rfl
  | cons x sets ih =>
    obtain ⟨⟨c, v⟩, place⟩ := x
    have hc := hcolumns _ List.mem_cons_self
    have hv := hrow _ List.mem_cons_self
    obtain ⟨hplace, hnodup⟩ := List.nodup_cons.mp hnodup
    have hrest : ∀ x ∈ sets, (row.set place .unknown)[x.2]? = some x.1.2 := by
      intro x hx
      have hne : place ≠ x.2 := by
        intro heq
        apply hplace
        rw [heq]
        exact List.mem_map.mpr ⟨x, hx, rfl⟩
      rw [List.getElem?_set_ne hne]
      exact hrow x (List.mem_cons_of_mem _ hx)
    have htail := ih (row.set place .unknown) (names.claim c.field).2 false
      (fun x hx => hcolumns x (List.mem_cons_of_mem _ hx)) hrest hnodup
    simp only [List.map_cons, Schema.assignments, hc, hv, Option.getD_some]
    rw [htail]
    rfl

end Assignment

/-! ### What has changed -/

namespace Record

theorem length_encode {ts : List NativeType} (r : Record ts) : r.encode.length = ts.length := by
  induction ts with
  | nil => rfl
  | cons t ts ih => exact congrArg (· + 1) (ih r.2)

end Record

namespace Entity

variable {s : Schema} (e : Entity s)

/-- The cells, apart from keys, whose values are not those of the row held, with their places. -/
def changedCells (held : Option (List Value)) : List ((Column × Value) × Nat) :=
  e.cells.zipIdx.filter fun ((c, v), place) =>
    !c.primaryKey && !held.any fun old => old[place]?.any (·.same v)

/-- The columns, apart from keys, whose values are not those of the row held, and their values. -/
def changes (held : Option (List Value)) : List (Column × Value) :=
  (e.changedCells held).map (·.1)

theorem length_row : e.row.length = s.columns.length := by
  show e.stored.encode.length = _
  rw [Record.length_encode, Schema.natives, List.length_map]

theorem of_mem_cells {x : (Column × Value) × Nat} (hx : x ∈ e.cells.zipIdx) :
    s.columns[x.2]? = some x.1.1 ∧ e.row[x.2]? = some x.1.2 := by
  have hcell := List.mem_zipIdx_iff_getElem?.mp hx
  exact List.getElem?_zip_eq_some.mp hcell

theorem changedPlaces_eq (held : Option (List Value)) :
    changedPlaces s.columns held e.row = (e.changedCells held).map (·.2) := by
  have hcolumns : s.columns = e.cells.map (·.1) := by
    rw [cells, List.map_fst_zip (by rw [e.length_row])]
  unfold changedPlaces changedCells
  nth_rewrite 1 [hcolumns]
  rw [List.zipIdx_map, List.filter_map, List.map_map]
  show (List.filter _ e.cells.zipIdx).map (·.2) = _
  congr 1
  apply List.filter_congr
  rintro ⟨⟨c, v⟩, place⟩ hx
  obtain ⟨-, hrow⟩ := e.of_mem_cells hx
  simp only [Function.comp_apply, Prod.map, id_eq, hrow]
  cases held with
  | none => rfl
  | some old =>
    cases hold : old[place]? <;> simp [hold, sameCell]

end Entity

/-! ### The statement -/

namespace Schema

/-- The statement `UPDATE table SET c = :c, d = :d WHERE key = :key` of some cells and a key, each
value under a name of its own. -/
def IsUpdate (s : Schema) (d : Dialect) (cells : List (Column × Value)) (key : Column × Value)
    (statement : String × List Binding) : Prop :=
  ∃ (sets : List Assignment) (pick : Assignment),
    sets.map Assignment.cell = cells ∧ pick.cell = key ∧
    (sets ++ [pick]).map (·.param.name) =
      (Names.none.claimAll ((sets ++ [pick]).map (·.column.field))).1 ∧
    statement =
      ("UPDATE " ++ d.quote s.table ++ " SET " ++ ", ".intercalate (sets.map (·.text d)) ++
          " WHERE " ++ pick.text d,
        (sets ++ [pick]).map (·.param))

/-- What sets some cells and picks a row by its key, put together. -/
def updateOf (s : Schema) (d : Dialect) (first : Bool) (cells : List (Column × Value))
    (key : Column × Value) : Fragment :=
  .text ("UPDATE " ++ d.quote s.table ++ " SET ") ++
    Assignment.fragment d first (Assignment.ofCells .none cells) ++
    keyFilter d (Names.none.claimAll (cells.map (·.1.field))).2 key.1 key.2

/-- Each marker stands for its own value, since names are different from each other. -/
theorem statement_updateOf (s : Schema) (d : Dialect) (first : Bool) (cells : List (Column × Value))
    (key : Column × Value) :
    ∃ (sets : List Assignment) (pick : Assignment),
      sets.map Assignment.cell = cells ∧ pick.cell = key ∧
      (sets ++ [pick]).map (·.param.name) =
        (Names.none.claimAll ((sets ++ [pick]).map (·.column.field))).1 ∧
      (s.updateOf d first cells key).bindings = (sets ++ [pick]).map (·.param) ∧
      d.render (s.updateOf d first cells key) =
        "UPDATE " ++ d.quote s.table ++ " SET " ++ (if first || sets.isEmpty then "" else ", ") ++
          ", ".intercalate (sets.map (·.text d)) ++ " WHERE " ++ pick.text d := by
  let sets := Assignment.ofCells .none cells
  let names := (Names.none.claimAll (cells.map (·.1.field))).2
  let pick : Assignment := ⟨key.1, ⟨(names.claim key.1.field).1, key.2⟩⟩
  let f := s.updateOf d first cells key
  have hall : sets ++ [pick] = Assignment.ofCells .none (cells ++ [key]) := by
    rw [Assignment.ofCells_append]
    rfl
  have hcells : (sets ++ [pick]).map Assignment.cell = cells ++ [key] := by
    rw [hall, Assignment.cells_ofCells]
  have hfields : (sets ++ [pick]).map (·.column.field) = (cells ++ [key]).map (·.1.field) := by
    rw [← hcells, List.map_map]
    rfl
  have hnames : (sets ++ [pick]).map (·.param.name) =
      (Names.none.claimAll ((sets ++ [pick]).map (·.column.field))).1 := by
    rw [hfields, hall, Assignment.names_ofCells]
  have hbindings : f.bindings = (sets ++ [pick]).map (·.param) := by
    simp [f, updateOf, keyFilter, Assignment.bindings_fragment, sets, pick, names]
  have hvalue : ∀ a ∈ sets ++ [pick], Fragment.valueOf f.bindings a.param.name = a.param.value := by
    intro a ha
    have hdistinct : (f.bindings.map (·.name)).Nodup := by
      rw [hbindings, List.map_map]
      show ((sets ++ [pick]).map (·.param.name)).Nodup
      rw [hnames]
      exact (Names.none.claimAll_fresh _).2.1
    apply Fragment.valueOf_of_nodup hdistinct
    rw [hbindings]
    exact List.mem_map_of_mem ha
  refine ⟨sets, pick, Assignment.cells_ofCells _ _, rfl, hnames, hbindings, ?_⟩
  show Fragment.render d.marker ⟨f.tokens, f.bindings⟩ = _
  have hsets := Assignment.render_fragment d first sets
    fun a ha => hvalue a (List.mem_append_left _ ha)
  have hparam := hvalue pick (List.mem_append_right _ List.mem_cons_self)
  simp only [f, updateOf, keyFilter, Fragment.render_extend, Fragment.render_text_tokens,
    Fragment.render_param_tokens] at hsets hparam ⊢
  rw [hsets, hparam]
  simp only [Assignment.text, String.append_assoc]
  rfl

/-- The statement sets the columns that have changed to their values, in order, and picks the row by
its key. -/
theorem update_changes (s : Schema) (d : Dialect) (e : Entity s) (held : Option (List Value))
    {column : Column} (hkey : s.requireKey = .ok column) :
    ∃ f, s.update d e (changedPlaces s.columns held e.row) = .ok f ∧
      s.IsUpdate d (e.changes held) (column, e.key) (d.render f, f.bindings) := by
  have hupdate : s.update d e (changedPlaces s.columns held e.row) =
      .ok (s.updateOf d true (e.changes held) (column, e.key)) := by
    have hplaces : ∀ x ∈ e.changedCells held,
        s.columns[x.2]? = some x.1.1 ∧ e.row[x.2]? = some x.1.2 := fun x hx =>
      e.of_mem_cells (List.mem_of_mem_filter hx)
    have hnodup : ((e.changedCells held).map (·.2)).Nodup := by
      have hplaces : (e.cells.zipIdx.map (·.2)).Nodup := by
        rw [List.zipIdx_map_snd]
        exact List.nodup_range' 1
      exact hplaces.sublist (List.filter_sublist.map _)
    unfold update
    rw [hkey, e.changedPlaces_eq, Assignment.assignments_eq d _ _ _ _ _
      (fun x hx => (hplaces x hx).1) (fun x hx => (hplaces x hx).2) hnodup]
    rfl
  obtain ⟨sets, pick, hcells, hpick, hnames, hbindings, hrender⟩ :=
    s.statement_updateOf d true (e.changes held) (column, e.key)
  refine ⟨_, hupdate, sets, pick, hcells, hpick, hnames, ?_⟩
  rw [hrender, hbindings]
  simp

end Schema

end BoundSql
