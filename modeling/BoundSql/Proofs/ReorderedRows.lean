import BoundSql.Proofs.Encoding
import BoundSql.Proofs.LabelLookups
import BoundSql.Proofs.UpdateStatement
import Mathlib.Data.List.Find

/-!
# Rows in any order

A row that shows an entity has its labeled values in any order, with any others among them whose
labels are no columns.  Some columns may be missing, and some values may be replaced
(`Entity.ShownIn`).  Since no label comes twice, each column is read from the one value that it is
shown with (`Entity.last?_of_shownIn`).  So the entity reads back if all of it is shown, the first
column that is missing is reported, and before that the leftmost value that does not decode
(`Entity.ofRow_reordered`).
-/

namespace BoundSql

/-! ### The cells of an entity -/

namespace Record

variable {cs : List Column}

theorem fields_zip (stored : Record (cs.map (·.native))) :
    Fields (fun c x => (c, c.native.encode x) ∈ cs.zip stored.encode) cs stored := by
  induction cs with
  | nil => trivial
  | cons c cs ih =>
    exact ⟨List.mem_cons_self, (ih stored.2).imp fun _ _ _ hmem => List.mem_cons_of_mem _ hmem⟩

theorem exists_of_mem_zip (stored : Record (cs.map (·.native))) {c : Column} {v : Value}
    (h : (c, v) ∈ cs.zip stored.encode) : ∃ x, v = c.native.encode x := by
  induction cs with
  | nil => cases h
  | cons first cs ih =>
    rcases List.mem_cons.mp h with heq | hmem
    · cases heq
      exact ⟨stored.1, rfl⟩
    · exact ih stored.2 hmem

end Record

theorem Column.faultAmong_of_not_mem {cs : List Column} {p : String × Value}
    (h : p.1 ∉ cs.map (·.name)) : faultAmong cs p = none := by
  have hfind : cs.find? (p.1 = ·.name) = none := by
    rw [List.find?_eq_none]
    intro c hc hname
    exact h (List.mem_map.mpr ⟨c, hc, (of_decide_eq_true hname).symm⟩)
  unfold faultAmong
  rw [hfind]
  rfl

namespace Entity

variable {s : Schema} {e : Entity s} {c : Column} {v : Value}

theorem map_name_cells (e : Entity s) : e.cells.map (·.1.name) = s.columns.map (·.name) := by
  have hcolumns : e.cells.map (·.1) = s.columns := List.map_fst_zip (by rw [e.length_row])
  rw [← hcolumns, List.map_map]
  rfl

theorem mem_columns_of_mem_cells (h : (c, v) ∈ e.cells) : c ∈ s.columns := (List.of_mem_zip h).1

theorem exists_mem_cells (e : Entity s) (hc : c ∈ s.columns) : ∃ v, (c, v) ∈ e.cells := by
  obtain ⟨x, hmem, -⟩ := (Record.fields_zip e.stored).exists_of_mem (Record.fields_zip e.stored) hc
  exact ⟨_, hmem⟩

theorem decode_of_mem_cells (hregular : ∀ c ∈ s.columns, c.native.Regular)
    (h : (c, v) ∈ e.cells) : ∃ x, c.native.decode v = .ok x := by
  obtain ⟨x, rfl⟩ := Record.exists_of_mem_zip e.stored h
  exact ⟨x, (hregular c (mem_columns_of_mem_cells h)).decode_encode x⟩

/-! ### Rows that show an entity -/

/-- The labeled values of an entity, without those of some columns and with other values in the
place of some. -/
def altered (e : Entity s) (omitted : Column → Bool) (replaced : Column → Option Value) :
    List (String × Value) :=
  (e.cells.filter fun (c, _) => !omitted c).map fun (c, v) => (c.name, (replaced c).getD v)

/-- The row has these labeled values in any order, and others only under labels that are no
columns. -/
def ShownIn (e : Entity s) (omitted : Column → Bool) (replaced : Column → Option Value)
    (r : LabeledRow) : Prop :=
  (r.pairs.filter fun p => p.1 ∈ s.columns.map (·.name)).Perm (e.altered omitted replaced)

section Shown

variable {omitted : Column → Bool} {replaced : Column → Option Value} {r : LabeledRow}
  (hnames : (s.columns.map (·.name)).Nodup) (hr : e.ShownIn omitted replaced r)

include hnames hr

theorem mem_pairs_iff_of_shownIn (h : (c, v) ∈ e.cells) (w : Value) :
    (c.name, w) ∈ r.pairs ↔ omitted c = false ∧ w = (replaced c).getD v := by
  have hlabel : c.name ∈ s.columns.map (·.name) :=
    List.mem_map_of_mem (mem_columns_of_mem_cells h)
  have hshown : (c.name, w) ∈ r.pairs ↔ (c.name, w) ∈ e.altered omitted replaced := by
    rw [← hr.mem_iff, List.mem_filter]
    simp only [hlabel, decide_true, and_true]
  rw [hshown, altered, List.mem_map]
  constructor
  · rintro ⟨⟨other, u⟩, hother, heq⟩
    obtain ⟨hmem, hkept⟩ := List.mem_filter.mp hother
    obtain ⟨hname, rfl⟩ := Prod.mk.inj heq
    -- no two cells have columns of one name
    have hcells : (e.cells.map (·.1.name)).Nodup := by rwa [map_name_cells]
    obtain ⟨rfl, rfl⟩ := Prod.mk.inj (List.inj_on_of_nodup_map hcells hmem h hname)
    exact ⟨by simpa using hkept, rfl⟩
  · rintro ⟨hkept, rfl⟩
    exact ⟨(c, v), List.mem_filter.mpr ⟨h, by simp [hkept]⟩, rfl⟩

/-- A column is read from the value that it is shown with. -/
theorem last?_of_shownIn (h : (c, v) ∈ e.cells) :
    r.last? c.name = if omitted c then none else some ((replaced c).getD v) := by
  have hpairs := mem_pairs_iff_of_shownIn hnames hr h
  cases hlast : r.last? c.name with
  | some w =>
    obtain ⟨hkept, rfl⟩ := (hpairs w).mp (LabeledRow.mem_pairs_of_last? hlast)
    rw [hkept]
    rfl
  | none =>
    cases homitted : omitted c with
    | true => rfl
    | false =>
      have hmem := (hpairs _).mpr ⟨homitted, rfl⟩
      have hnone := List.lookup_eq_none_iff.mp hlast _ (List.mem_reverse.mpr hmem)
      simp at hnone

/-- A value that does not stop the reading has replaced none, if those that do replace one do not
decode. -/
theorem not_replaced_of_no_fault
    (hreplaced : ∀ c ∈ s.columns, ∀ v, replaced c = some v → ∃ f, c.native.decode v = .error f)
    {p : String × Value} (hp : p ∈ r.pairs) (hnone : Column.faultAmong s.columns p = none) :
    ∀ c ∈ s.columns, c.name = p.1 → replaced c = none := by
  rintro c hc hname
  obtain ⟨name, w⟩ := p
  obtain rfl : c.name = name := hname
  obtain ⟨v, hv⟩ := e.exists_mem_cells hc
  obtain ⟨-, hw⟩ := (mem_pairs_iff_of_shownIn hnames hr hv w).mp hp
  cases hother : replaced c with
  | none => rfl
  | some u =>
    obtain ⟨f, hf⟩ := hreplaced c hc u hother
    rw [hother] at hw
    obtain rfl : w = u := hw
    rw [Column.faultAmong_of_mem hnames hc, hf] at hnone
    cases hnone

variable (hregular : ∀ c ∈ s.columns, c.native.Regular)

include hregular

/-- A value that stops the reading has replaced one of the entity. -/
theorem exists_of_faultAmong {p : String × Value} {f : Fault} (hp : p ∈ r.pairs)
    (hf : Column.faultAmong s.columns p = some f) :
    ∃ c ∈ s.columns, ∃ cause, p.1 = c.name ∧ omitted c = false ∧ replaced c = some p.2 ∧
      c.native.decode p.2 = .error cause ∧ f = .within (.decodingColumn c.name) cause := by
  by_cases hlabel : p.1 ∈ s.columns.map (·.name)
  · obtain ⟨c, hc, hname⟩ := List.mem_map.mp hlabel
    obtain ⟨name, w⟩ := p
    obtain rfl : c.name = name := hname
    obtain ⟨v, hv⟩ := e.exists_mem_cells hc
    obtain ⟨hkept, hw⟩ := (mem_pairs_iff_of_shownIn hnames hr hv w).mp hp
    rw [Column.faultAmong_of_mem hnames hc] at hf
    cases hdecode : c.native.decode w with
    | ok x => simp [hdecode] at hf
    | error cause =>
      rw [hdecode] at hf
      refine ⟨c, hc, cause, rfl, hkept, ?_, hdecode, (Option.some.inj hf).symm⟩
      cases hreplaced : replaced c with
      | some u =>
        rw [hreplaced] at hw
        exact congrArg some hw.symm
      | none =>
        rw [hreplaced] at hw
        obtain ⟨x, hx⟩ := decode_of_mem_cells hregular hv
        obtain rfl : w = v := hw
        cases hdecode.symm.trans hx
  · rw [Column.faultAmong_of_not_mem hlabel] at hf
    cases hf

theorem no_fault_of_shownIn
    (hkept : ∀ c ∈ s.columns, omitted c = false → replaced c = none) :
    r.pairs.findSome? (Column.faultAmong s.columns) = none := by
  rw [List.findSome?_eq_none_iff]
  intro p hp
  by_contra hfault
  obtain ⟨f, hf⟩ := Option.ne_none_iff_exists'.mp hfault
  obtain ⟨c, hc, -, -, homitted, hreplaced, -, -⟩ :=
    exists_of_faultAmong hnames hr hregular hp hf
  rw [hkept c hc homitted] at hreplaced
  cases hreplaced

theorem read_of_shownIn {x : c.native.Carrier} (h : (c, c.native.encode x) ∈ e.cells)
    (hkept : ∀ c ∈ s.columns, omitted c = false → replaced c = none) :
    c.read r.last? = if omitted c then none else some x := by
  have hc := mem_columns_of_mem_cells h
  have hlast := last?_of_shownIn hnames hr h
  unfold Column.read
  cases homitted : omitted c with
  | true =>
    rw [homitted] at hlast
    rw [hlast]
    rfl
  | false =>
    rw [homitted, hkept c hc homitted] at hlast
    rw [hlast]
    show (c.native.decode (c.native.encode x)).toOption = some x
    rw [(hregular c hc).decode_encode]
    rfl

end Shown

/-- In a schema whose columns have different names, an entity reads back from any row that shows all
of it, with its other fields as they start anew.  Where columns are missing, the fault names the
first of them in the order of the schema.  Where values are replaced by others that do not decode,
the fault is that of the leftmost of these in the row, whatever else is missing. -/
theorem ofRow_reordered (hnames : (s.columns.map (·.name)).Nodup)
    (hregular : ∀ c ∈ s.columns, c.native.Regular) (e : Entity s) (omitted : Column → Bool)
    (replaced : Column → Option Value)
    (hreplaced : ∀ c ∈ s.columns, ∀ v, replaced c = some v → ∃ f, c.native.decode v = .error f)
    (r : LabeledRow) (hr : e.ShownIn omitted replaced r) :
    ((∀ c ∈ s.columns, omitted c = false ∧ replaced c = none) →
        ofRow s r = .ok ⟨e.stored, .initial _⟩) ∧
      (∀ c, (∀ c ∈ s.columns, omitted c = false → replaced c = none) →
        s.columns.find? omitted = some c → ofRow s r = .error (.missingColumn c.name)) ∧
      ((∃ c ∈ s.columns, omitted c = false ∧ (replaced c).isSome) →
        ∃ before c v after f, r.pairs = before ++ (c.name, v) :: after ∧
          c ∈ s.columns ∧ replaced c = some v ∧ c.native.decode v = .error f ∧
          (∀ p ∈ before, ∀ c ∈ s.columns, c.name = p.1 → replaced c = none) ∧
          ofRow s r = .error (.within (.decodingColumn c.name) f)) := by
  refine ⟨?_, ?_, ?_⟩
  · intro hall
    have hkept : ∀ c ∈ s.columns, omitted c = false → replaced c = none :=
      fun c hc _ => (hall c hc).2
    refine (ofRow_eq_ok_iff hnames).mpr ⟨no_fault_of_shownIn hnames hr hregular hkept, ?_, rfl⟩
    refine (Record.fields_zip e.stored).imp ?_
    intro c hc x hmem
    rw [read_of_shownIn hnames hr hregular hmem hkept, (hall c hc).1]
    rfl
  · intro c hkept hfirst
    refine ofRow_of_missing hnames (no_fault_of_shownIn hnames hr hregular hkept) ?_
    rw [← hfirst]
    apply List.find?_congr
    intro other hother
    obtain ⟨x, hmem, -⟩ :=
      (Record.fields_zip e.stored).exists_of_mem (Record.fields_zip e.stored) hother
    rw [read_of_shownIn hnames hr hregular hmem hkept]
    cases omitted other <;> rfl
  · rintro ⟨c, hc, hkept, hsome⟩
    obtain ⟨w, hw⟩ := Option.isSome_iff_exists.mp hsome
    obtain ⟨v, hv⟩ := e.exists_mem_cells hc
    have hmem : (c.name, w) ∈ r.pairs :=
      (mem_pairs_iff_of_shownIn hnames hr hv w).mpr ⟨hkept, by rw [hw]; rfl⟩
    cases hfault : r.pairs.findSome? (Column.faultAmong s.columns) with
    | none =>
      have hnone := List.findSome?_eq_none_iff.mp hfault _ hmem
      have hsame := not_replaced_of_no_fault hnames hr hreplaced hmem hnone c hc rfl
      cases hsame.symm.trans hw
    | some f =>
      obtain ⟨before, p, after, hsplit, hf, hbefore⟩ := List.findSome?_eq_some_iff.mp hfault
      have hpairs : ∀ q ∈ before ++ p :: after, q ∈ r.pairs := by simp [hsplit]
      obtain ⟨first, hfirst, cause, hname, -, hother, hdecode, rfl⟩ :=
        exists_of_faultAmong hnames hr hregular (hpairs p (by simp)) hf
      refine ⟨before, first, p.2, after, cause, ?_, hfirst, hother, hdecode, ?_,
        ofRow_of_fault hnames hfault⟩
      · rw [hsplit, ← hname]
      · intro q hq
        have hmember := hpairs q (List.mem_append_left _ hq)
        exact not_replaced_of_no_fault hnames hr hreplaced hmember (hbefore q hq)

/-- An entry of the audit log. -/
def teaEntry : Entity Schema.auditLog := ⟨("tea", none, ()), ()⟩

theorem regular_auditLog : ∀ c ∈ Schema.auditLog.columns, c.native.Regular := by
  simp only [Schema.auditLog, List.forall_mem_cons]
  exact ⟨.base _, .option (.base _) rfl, by simp⟩

/-- The entry with its values in the other order and one more between them, the entry without its
values, and the entry with a truth value in the place of each. -/
theorem ofRow_reordered_teaEntry :
    let shown : LabeledRow :=
      ⟨["at", "by", "message"], [.null .timestamp, .varchar "me", .varchar "tea"]⟩
    let bare : LabeledRow := ⟨["by"], [.varchar "me"]⟩
    let swapped : LabeledRow :=
      ⟨["at", "message"], [.scalar (.boolean true), .scalar (.boolean true)]⟩
    ofRow Schema.auditLog shown = .ok teaEntry ∧
      ofRow Schema.auditLog bare = .error (.missingColumn "message") ∧
      (∃ c ∈ Schema.auditLog.columns, ∃ f,
        ofRow Schema.auditLog swapped = .error (.within (.decodingColumn c.name) f)) := by
  intro shown bare swapped
  have hnames : (Schema.auditLog.columns.map (·.name)).Nodup := by decide
  obtain ⟨hshown, -, -⟩ := ofRow_reordered hnames regular_auditLog teaEntry (fun _ => false)
    (fun _ => none) (by simp) shown (List.Perm.swap _ _ _)
  obtain ⟨-, hbare, -⟩ := ofRow_reordered hnames regular_auditLog teaEntry (fun _ => true)
    (fun _ => none) (by simp) bare (List.Perm.refl _)
  have hfails : ∀ c ∈ Schema.auditLog.columns, ∀ v, some (Value.scalar (.boolean true)) = some v →
      ∃ f, c.native.decode v = .error f := by
    intro c hc v hv
    cases hv
    simp only [Schema.auditLog, List.mem_cons, List.not_mem_nil, or_false] at hc
    rcases hc with rfl | rfl
    · exact ⟨_, rfl⟩
    · exact ⟨_, rfl⟩
  obtain ⟨-, -, hswapped⟩ := ofRow_reordered hnames regular_auditLog teaEntry (fun _ => false)
    (fun _ => some (.scalar (.boolean true))) hfails swapped (List.Perm.swap _ _ _)
  obtain ⟨-, c, -, -, f, -, hc, -, -, -, hfault⟩ := hswapped ⟨_, List.mem_cons_self, rfl, rfl⟩
  exact ⟨hshown fun _ _ => ⟨rfl, rfl⟩, hbare _ (by simp) rfl, c, hc, f, hfault⟩

end Entity

end BoundSql
