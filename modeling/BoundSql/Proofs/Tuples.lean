import BoundSql.Proofs.InsertStatement
import BoundSql.Proofs.UpdateStatement
import BoundSql.Schema.Samples
import Mathlib.Data.List.Forall2

/-!
# Columns, markers and values of an insert

An insert lists the columns that the database does not generate, and has one tuple for each entity
with one marker for each column listed.  Names are claimed in the order of the markers, so that no
two are the same, however the fields are called (`Schema.names_tuplesOf`), and each marker stands
for the value bound under its name (`Schema.render_tuplesOf`).  The value in a tuple under a column
is the one that the row of the entity has at the place of the column (`Schema.insert_aligns`).
-/

namespace BoundSql

theorem Names.claimAll_append (names : Names) (bases more : List String) :
    (names.claimAll (bases ++ more)).1 =
      (names.claimAll bases).1 ++ ((names.claimAll bases).2.claimAll more).1 := by
  induction bases generalizing names with
  | nil => rfl
  | cons base bases ih => exact congrArg (List.cons _) (ih _)

/-- `(:c, :d)` -/
def Dialect.tupleText (d : Dialect) (tuple : List Binding) : String :=
  "(" ++ ", ".intercalate (tuple.map fun b => d.marker b.name b.value) ++ ")"

namespace Schema

/-! ### Columns that are listed -/

section Listed

variable (s : Schema) (default : Bool)

/-- The database generates a column that is a key where the column says so, or else the table, or
else the client. -/
def Generates (c : Column) : Prop :=
  c.primaryKey = true ∧ (c.generated = some true ∨ c.generated = none ∧
    (s.generated = some true ∨ s.generated = none ∧ default = true))

instance (c : Column) : Decidable (s.Generates default c) :=
  inferInstanceAs (Decidable (_ ∧ _))

theorem isGenerated_eq (c : Column) : s.isGenerated default c = decide (s.Generates default c) := by
  rw [Bool.eq_iff_iff, decide_eq_true_iff]
  unfold isGenerated Generates
  rw [Bool.and_eq_true]
  refine and_congr_right fun _ => ?_
  cases c.generated with
  | some decided => simp
  | none => cases s.generated <;> simp

/-- The columns that an insert lists, with their places. -/
def listed : List (Column × Nat) :=
  s.columns.zipIdx.filter fun x => !decide (s.Generates default x.1)

theorem map_listed :
    (s.listed default).map (·.1) = s.columns.filter (!s.isGenerated default ·) := by
  have hcolumns : s.columns.zipIdx.map (·.1) = s.columns := List.zipIdx_map_fst 0 _
  nth_rewrite 1 [← hcolumns]
  rw [List.filter_map]
  simp only [listed, isGenerated_eq]
  rfl

/-- What is inserted are the values at the places of the columns listed. -/
theorem insertedCells_listed (e : Entity s) :
    List.Forall₂ (fun x v => e.row[x.2]? = some v) (s.listed default)
      ((s.insertedCells default e).map (·.2)) := by
  let kept := e.cells.zipIdx.filter fun x => !decide (s.Generates default x.1.1)
  have hlisted : s.listed default = kept.map (Prod.map Prod.fst id) := by
    have hcolumns : s.columns = e.cells.map Prod.fst := by
      rw [Entity.cells, List.map_fst_zip (by rw [e.length_row])]
    unfold listed
    nth_rewrite 1 [hcolumns]
    rw [List.zipIdx_map, List.filter_map]
    rfl
  have hvalues : (s.insertedCells default e).map (·.2) = kept.map (·.1.2) := by
    have hcells : e.cells.zipIdx.map (·.1) = e.cells := List.zipIdx_map_fst 0 _
    unfold insertedCells
    nth_rewrite 1 [← hcells]
    rw [List.filter_map, List.map_map, List.map_map]
    simp only [isGenerated_eq]
    rfl
  rw [hlisted, hvalues, List.forall₂_map_left_iff, List.forall₂_map_right_iff, List.forall₂_same]
  intro x hx
  exact (e.of_mem_cells (List.mem_of_mem_filter hx)).2

end Listed

/-! ### Tuples -/

section Tuples

variable (names : Names) (cells : List (String × Value)) (rows : List (List (String × Value)))

theorem names_tupleOf :
    (tupleOf names cells).1.2.map (·.name) = (names.claimAll (cells.map (·.1))).1 ∧
      (tupleOf names cells).2 = (names.claimAll (cells.map (·.1))).2 := by
  induction cells generalizing names with
  | nil => exact ⟨rfl, rfl⟩
  | cons cell cells ih =>
    obtain ⟨hclaimed, hafter⟩ := ih (names.claim cell.1).2
    exact ⟨congrArg (List.cons _) hclaimed, hafter⟩

/-- Names are claimed in the order of the tuples, and of the fields in each. -/
theorem names_tuplesOf :
    (tuplesOf names rows).1.2.map (·.name) = (names.claimAll (rows.flatten.map (·.1))).1 := by
  induction rows generalizing names with
  | nil => rfl
  | cons cells rows ih =>
    obtain ⟨hclaimed, hafter⟩ := names_tupleOf names cells
    show ((tupleOf names cells).1.2 ++ (tuplesOf (tupleOf names cells).2 rows).1.2).map (·.name) = _
    rw [List.map_append, ih, hclaimed, hafter, List.flatten_cons, List.map_append,
      Names.claimAll_append]

theorem tokens_tupleOf_cons (cell next : String × Value) :
    (tupleOf names (cell :: next :: cells)).1.1 =
      .param (names.claim cell.1).1 :: .text ", " ::
        (tupleOf (names.claim cell.1).2 (next :: cells)).1.1 := rfl

theorem paramNames_tupleOf :
    Token.paramNames (tupleOf names cells).1.1 = (tupleOf names cells).1.2.map (·.name) := by
  induction cells generalizing names with
  | nil => rfl
  | cons cell cells ih =>
    cases cells with
    | nil => rfl
    | cons next cells =>
      rw [tokens_tupleOf_cons, Token.paramNames_cons_param, Token.paramNames_cons_text, ih]
      rfl

/-- The markers stand in the order of the bindings. -/
theorem paramNames_tuplesOf :
    Token.paramNames (tuplesOf names rows).1.1 = (tuplesOf names rows).1.2.map (·.name) := by
  induction rows generalizing names with
  | nil => rfl
  | cons cells rows ih =>
    have hcells := paramNames_tupleOf names cells
    cases rows with
    | nil => simp [hcells, tuplesOf]
    | cons next rows =>
      obtain ⟨rest, hrest, htokens⟩ := tokens_tuplesOf_cons names cells next rows
      have htail := ih (tupleOf names cells).2
      rw [hrest, Token.paramNames_cons_text] at htail
      rw [htokens]
      simp only [Token.paramNames_cons_text, Token.paramNames_append_list, hcells, htail]
      exact List.map_append.symm

/-- The bindings of each tuple. -/
def tuples (names : Names) : List (List (String × Value)) → List (List Binding)
  | [] => []
  | cells :: rows => (tupleOf names cells).1.2 :: tuples (tupleOf names cells).2 rows

theorem flatten_tuples : (tuples names rows).flatten = (tuplesOf names rows).1.2 := by
  induction rows generalizing names with
  | nil => rfl
  | cons cells rows ih => exact congrArg ((tupleOf names cells).1.2 ++ ·) (ih _)

theorem values_tupleOf : (tupleOf names cells).1.2.map (·.value) = cells.map (·.2) := by
  induction cells generalizing names with
  | nil => rfl
  | cons cell cells ih =>
    obtain ⟨field, v⟩ := cell
    exact congrArg (List.cons v) (ih _)

theorem values_tuples :
    List.Forall₂ (fun cells tuple => tuple.map (·.value) = cells.map (·.2)) rows
      (tuples names rows) := by
  induction rows generalizing names with
  | nil => exact .nil
  | cons cells rows ih => exact .cons (values_tupleOf names cells) (ih _)

variable (d : Dialect) {bindings : List Binding}

theorem render_tupleOf
    (h : ∀ b ∈ (tupleOf names cells).1.2, Fragment.valueOf bindings b.name = b.value) :
    Fragment.render d.marker ⟨(tupleOf names cells).1.1, bindings⟩ =
      ", ".intercalate ((tupleOf names cells).1.2.map fun b => d.marker b.name b.value) := by
  induction cells generalizing names with
  | nil => rfl
  | cons cell cells ih =>
    obtain ⟨hfirst, hrest⟩ := List.forall_mem_cons.mp h
    have htail := ih (names.claim cell.1).2 hrest
    have hmarker : Fragment.renderToken d.marker bindings (.param (names.claim cell.1).1) =
        d.marker (names.claim cell.1).1 cell.2 := congrArg (d.marker _) hfirst
    cases cells with
    | nil =>
      show Fragment.render d.marker ⟨[.param (names.claim cell.1).1], bindings⟩ = _
      rw [Fragment.render_cons, hmarker]
      exact String.append_empty
    | cons next cells =>
      rw [tokens_tupleOf_cons, Fragment.render_cons, Fragment.render_cons, hmarker, htail,
        ← String.append_assoc]
      exact (String.intercalate_cons_cons).symm

theorem render_tuple
    (h : ∀ b ∈ (tupleOf names cells).1.2, Fragment.valueOf bindings b.name = b.value)
    (ts : List Token) :
    Fragment.render d.marker
        ⟨.text "(" :: ((tupleOf names cells).1.1 ++ .text ")" :: ts), bindings⟩ =
      d.tupleText (tupleOf names cells).1.2 ++ Fragment.render d.marker ⟨ts, bindings⟩ := by
  rw [Fragment.render_cons, Fragment.render_append, Fragment.render_cons,
    render_tupleOf names cells d h]
  simp only [Dialect.tupleText, String.append_assoc]
  rfl

/-- Each marker stands for the value bound under its name. -/
theorem render_tuplesOf
    (h : ∀ b ∈ (tuplesOf names rows).1.2, Fragment.valueOf bindings b.name = b.value) :
    Fragment.render d.marker ⟨(tuplesOf names rows).1.1, bindings⟩ =
      ", ".intercalate ((tuples names rows).map d.tupleText) := by
  induction rows generalizing names with
  | nil => rfl
  | cons cells rows ih =>
    obtain ⟨hcells, hmore⟩ := List.forall_mem_append.mp h
    cases rows with
    | nil =>
      rw [tokens_tuplesOf_singleton, render_tuple names cells d hcells]
      exact String.append_empty
    | cons next rows =>
      obtain ⟨rest, hrest, htokens⟩ := tokens_tuplesOf_cons names cells next rows
      have htail := ih (tupleOf names cells).2 hmore
      rw [hrest] at htail
      rw [htokens, render_tuple names cells d hcells, Fragment.render_cons, htail,
        ← String.append_assoc]
      exact String.intercalate_cons_cons.symm

end Tuples

/-! ### The statement -/

section Insert

variable (s : Schema) (d : Dialect) (entities : List (Entity s)) (generated : Bool)

/-- What is bound in each tuple of an insert. -/
def insertedTuples : List (List Binding) :=
  tuples .none (entities.map (s.insertedCells generated))

theorem bindings_insert :
    (s.insert d entities generated).bindings = (s.insertedTuples entities generated).flatten :=
  (flatten_tuples .none _).symm

theorem nodup_names_insert : ((s.insert d entities generated).bindings.map (·.name)).Nodup := by
  rw [bindings_insert, insertedTuples, flatten_tuples, names_tuplesOf]
  exact (Names.none.claimAll_fresh _).2.1

theorem render_insert :
    d.render (s.insert d entities generated) = "INSERT INTO " ++ d.quote s.table ++ " (" ++
      ", ".intercalate ((s.listed generated).map fun x => d.quote x.1.name) ++ ") VALUES " ++
      ", ".intercalate ((s.insertedTuples entities generated).map d.tupleText) := by
  let f := s.insert d entities generated
  -- no name is bound twice, so a marker stands for the value of its own binding
  have hvalues : ∀ b ∈ f.bindings, Fragment.valueOf f.bindings b.name = b.value :=
    fun b hb => Fragment.valueOf_of_nodup (s.nodup_names_insert d entities generated) hb
  have htuples := render_tuplesOf .none (entities.map (s.insertedCells generated)) d hvalues
  have hhead : d.render f = s.insertHead d generated ++ Fragment.render d.marker
      ⟨(tuplesOf .none (entities.map (s.insertedCells generated))).1.1, f.bindings⟩ :=
    (Fragment.render_compact _ _ _).trans (Fragment.render_cons _ _ _ _)
  have hcolumns : (s.listed generated).map (fun x => d.quote x.1.name) =
      (s.columns.filter (!s.isGenerated generated ·)).map (d.quote ·.name) := by
    rw [← map_listed, List.map_map]
    rfl
  rw [hhead, htuples, hcolumns]
  rfl

/-- A tuple has the values of its entity at the places of the columns listed. -/
theorem rows_insertedTuples :
    List.Forall₂ (fun e tuple =>
      List.Forall₂ (fun x b => e.row[x.2]? = some b.value) (s.listed generated) tuple) entities
      (s.insertedTuples entities generated) := by
  have hvalues := values_tuples .none (entities.map (s.insertedCells generated))
  rw [List.forall₂_map_left_iff] at hvalues
  refine hvalues.imp fun e tuple htuple => ?_
  have hcells := s.insertedCells_listed generated e
  rw [← htuple, List.forall₂_map_right_iff] at hcells
  exact hcells

end Insert

/-- An insert lists the columns that the database does not generate, in their order, and has one
tuple for each entity, in their order too.  A tuple has one marker for each column listed, and the
value bound to it is that of the entity at the place of the column.  Names are different from each
other, and the markers name the bindings in order. -/
theorem insert_aligns (s : Schema) (d : Dialect) (entities : List (Entity s)) (generated : Bool) :
    let listed := s.listed generated
    let f := s.insert d entities generated
    ∃ tuples : List (List Binding),
      d.render f = "INSERT INTO " ++ d.quote s.table ++ " (" ++
        ", ".intercalate (listed.map fun x => d.quote x.1.name) ++ ") VALUES " ++
        ", ".intercalate (tuples.map d.tupleText) ∧
      f.bindings = tuples.flatten ∧
      (f.bindings.map (·.name)).Nodup ∧
      Token.paramNames f.tokens = f.bindings.map (·.name) ∧
      List.Forall₂ (fun e tuple =>
        List.Forall₂ (fun x b => e.row[x.2]? = some b.value) listed tuple) entities tuples := by
  intro listed f
  refine ⟨s.insertedTuples entities generated, s.render_insert d entities generated,
    s.bindings_insert d entities generated, s.nodup_names_insert d entities generated, ?_,
    s.rows_insertedTuples entities generated⟩
  show Token.paramNames (Token.compact _) = _
  rw [Token.paramNames_compact, Token.paramNames_cons_text, paramNames_tuplesOf]
  rfl

/-- A row of the table whose fields have names that look like numbered ones. -/
def clashing (n : Numeric.Integer .int32) : Entity .clash := ⟨(n, n, n, none, ()), ()⟩

example :
    let one : Numeric.Integer .int32 := ⟨1, by decide, by decide⟩
    let two : Numeric.Integer .int32 := ⟨2, by decide, by decide⟩
    ((Schema.clash.insert .sqlite [clashing one, clashing two] false).bindings.map (·.name)) =
      ["a", "a1", "a2", "a3", "a11", "a21"] := by
  decide +kernel

end Schema

end BoundSql
