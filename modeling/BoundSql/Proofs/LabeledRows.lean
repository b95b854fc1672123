import BoundSql.Query.Rows
import BoundSql.Schema.Basic
import Mathlib.Logic.Function.Basic

/-!
# Entities read from labeled rows

An entity is read in one pass over the labels of a row.  While no value fails to decode, what was
read so far is for each column the value behind the last label with its name (`Draft.found`).  So
reading fails at the first value that does not decode (`Entity.ofRow_of_fault`), otherwise at the
first column that no label names (`Entity.ofRow_of_missing`), and otherwise gives each field the
value that stands at the last place of its label (`Entity.ofRow_eq_ok_iff`).
-/

namespace BoundSql

open Function (update)

/-! ### Values under labels -/

namespace LabeledRow

variable (r : LabeledRow)

/-- The values of a row with their labels.  Where there are more labels than values, or more values
than labels, the rest is left out. -/
def pairs : List (String × Value) := r.labels.zip r.values

/-- The value at the last place that has the label. -/
def last? (label : String) : Option Value := r.pairs.reverse.lookup label

end LabeledRow

/-- The values that are found under labels after some more were read. -/
def readOn (look : String → Option Value) (ps : List (String × Value)) : String → Option Value :=
  ps.foldl (fun look p => update look p.1 (some p.2)) look

theorem readOn_apply (look : String → Option Value) (ps : List (String × Value)) (label : String) :
    readOn look ps label = (ps.reverse.lookup label).or (look label) := by
  induction ps generalizing look with
  | nil => rfl
  | cons p ps ih =>
    obtain ⟨name, v⟩ := p
    have hstep : readOn look ((name, v) :: ps) label =
        (ps.reverse.lookup label).or (update look name (some v) label) := ih _
    rw [hstep, List.reverse_cons, List.lookup_append, Option.or_assoc]
    congr 1
    by_cases hlabel : label = name
    · subst hlabel
      rw [Function.update_self, List.lookup_cons_self]
      rfl
    · have hne : (label == name) = false := beq_eq_false_iff_ne.mpr hlabel
      rw [Function.update_of_ne hlabel, List.lookup_cons, hne]
      rfl

/-! ### Columns -/

/-- The value of a column, found under its name and decoded. -/
def Column.read (c : Column) (look : String → Option Value) : Option c.native.Carrier :=
  (look c.name).bind fun v => (c.native.decode v).toOption

/-- Why a labeled value stops the reading: it does not decode as the first column of its label. -/
def Column.faultAmong (cs : List Column) (p : String × Value) : Option Fault :=
  (cs.find? (p.1 = ·.name)).bind fun c =>
    match c.native.decode p.2 with
    | .error e => some (.within (.decodingColumn c.name) e)
    | .ok _ => none

/-- A condition on every column and its field. -/
def Record.Fields (P : (c : Column) → c.native.Carrier → Prop) :
    (cs : List Column) → Record (cs.map (·.native)) → Prop
  | [], _ => True
  | c :: cs, (x, rest) => P c x ∧ Fields P cs rest

/-! ### Drafts -/

namespace Draft

variable {cs : List Column} {look : String → Option Value}

/-- The draft that has a value for each column under whose name one is found. -/
def found (look : String → Option Value) : (cs : List Column) → Draft (cs.map (·.native))
  | [] => ()
  | c :: cs => (c.read look, found look cs)

theorem found_nothing (cs : List Column) : found (fun _ => none) cs = blank _ := by
  induction cs with
  | nil => rfl
  | cons c cs ih => exact congrArg (Prod.mk none) ih

theorem found_update_of_not_mem {name : String} (hname : name ∉ cs.map (·.name))
    (v : Option Value) : found (update look name v) cs = found look cs := by
  induction cs with
  | nil => rfl
  | cons c cs ih =>
    rw [List.map_cons, List.mem_cons, not_or] at hname
    have hread : c.read (update look name v) = c.read look := by
      unfold Column.read
      rw [Function.update_of_ne (Ne.symm hname.1)]
    exact Prod.ext hread (ih hname.2)

/-- A labeled value is read for the only column of its label, or stops the reading. -/
theorem assign_found (hnames : (cs.map (·.name)).Nodup) (look : String → Option Value)
    (name : String) (v : Value) :
    assign name v cs (found look cs) =
      match Column.faultAmong cs (name, v) with
      | some f => .error f
      | none => .ok (found (update look name (some v)) cs) := by
  induction cs with
  | nil => rfl
  | cons c cs ih =>
    obtain ⟨hfirst, hrest⟩ := List.nodup_cons.mp hnames
    by_cases hname : name = c.name
    · subst hname
      have hfault : Column.faultAmong (c :: cs) (c.name, v) =
          match c.native.decode v with
          | .error e => some (.within (.decodingColumn c.name) e)
          | .ok _ => none := by
        simp [Column.faultAmong]
      simp only [hfault, found, assign, if_pos]
      cases hdecode : c.native.decode v with
      | error e => rfl
      | ok x =>
        have hread : c.read (update look c.name (some v)) = some x := by
          unfold Column.read
          rw [Function.update_self, Option.bind_some, hdecode]
          rfl
        simp only [hread, found_update_of_not_mem hfirst]
    · have hfault : Column.faultAmong (c :: cs) (name, v) = Column.faultAmong cs (name, v) := by
        simp [Column.faultAmong, hname]
      have hread : c.read (update look name (some v)) = c.read look := by
        unfold Column.read
        rw [Function.update_of_ne (Ne.symm hname)]
      simp only [hfault, found, assign, if_neg hname, ih hrest, hread]
      cases Column.faultAmong cs (name, v) <;> rfl

theorem assignAll_found (hnames : (cs.map (·.name)).Nodup) (look : String → Option Value)
    (ps : List (String × Value)) :
    assignAll cs (found look cs) ps =
      match ps.findSome? (Column.faultAmong cs) with
      | some f => .error f
      | none => .ok (found (readOn look ps) cs) := by
  induction ps generalizing look with
  | nil => rfl
  | cons p ps ih =>
    obtain ⟨name, v⟩ := p
    simp only [assignAll, assign_found hnames, List.findSome?_cons]
    cases Column.faultAmong cs (name, v) with
    | some f => rfl
    | none => exact ih _

/-- A draft is finished where each column has a value. -/
theorem finish_found_eq_ok_iff {stored : Record (cs.map (·.native))} :
    finish cs (found look cs) = .ok stored ↔
      Record.Fields (fun c x => c.read look = some x) cs stored := by
  induction cs with
  | nil => exact ⟨fun _ => trivial, fun _ => rfl⟩
  | cons c cs ih =>
    obtain ⟨x, rest⟩ := stored
    simp only [finish, found, Record.Fields]
    cases hread : c.read look with
    | none => simp
    | some y =>
      rw [← ih]
      cases finish cs (found look cs) with
      | error e => simp
      | ok others =>
        simp only [Except.ok.injEq, Option.some.injEq]
        exact Prod.ext_iff

theorem finish_found_of_missing {c : Column}
    (hmissing : cs.find? (fun c => (c.read look).isNone) = some c) :
    finish cs (found look cs) = .error (.missingColumn c.name) := by
  induction cs with
  | nil => cases hmissing
  | cons first cs ih =>
    simp only [finish, found]
    cases hread : first.read look with
    | none =>
      rw [List.find?_cons_of_pos (by simp [hread])] at hmissing
      rw [Option.some.inj hmissing]
    | some x =>
      rw [List.find?_cons_of_neg (by simp [hread])] at hmissing
      simp only [ih hmissing]

end Draft

/-! ### Entities -/

namespace Entity

variable {s : Schema} (hnames : (s.columns.map (·.name)).Nodup) {r : LabeledRow}

/-- A condition on every column of an entity and its field. -/
def Fields (e : Entity s) (P : (c : Column) → c.native.Carrier → Prop) : Prop :=
  Record.Fields P s.columns e.stored

include hnames

theorem ofRow_of_fault {f : Fault}
    (hfault : r.pairs.findSome? (Column.faultAmong s.columns) = some f) :
    ofRow s r = .error f := by
  have hread := Draft.assignAll_found hnames (fun _ => none) r.pairs
  rw [Draft.found_nothing, hfault] at hread
  unfold ofRow
  rw [← LabeledRow.pairs, hread]

theorem ofRow_of_no_fault (hnone : r.pairs.findSome? (Column.faultAmong s.columns) = none) :
    ofRow s r = (Draft.finish s.columns (Draft.found r.last? s.columns)).map
      fun stored => ⟨stored, .initial _⟩ := by
  have hread := Draft.assignAll_found hnames (fun _ => none) r.pairs
  have hlast : readOn (fun _ => none) r.pairs = r.last? := by
    funext label
    rw [readOn_apply, Option.or_none]
    rfl
  rw [Draft.found_nothing, hnone, hlast] at hread
  unfold ofRow
  rw [← LabeledRow.pairs, hread]
  dsimp only
  cases Draft.finish s.columns (Draft.found r.last? s.columns) <;> rfl

theorem ofRow_of_missing {c : Column}
    (hnone : r.pairs.findSome? (Column.faultAmong s.columns) = none)
    (hmissing : s.columns.find? (fun c => (c.read r.last?).isNone) = some c) :
    ofRow s r = .error (.missingColumn c.name) := by
  rw [ofRow_of_no_fault hnames hnone, Draft.finish_found_of_missing hmissing]
  rfl

theorem ofRow_eq_ok_iff {e : Entity s} :
    ofRow s r = .ok e ↔
      r.pairs.findSome? (Column.faultAmong s.columns) = none ∧
        e.Fields (fun c x => c.read r.last? = some x) ∧ e.rest = .initial _ := by
  cases hfault : r.pairs.findSome? (Column.faultAmong s.columns) with
  | some f => simp [ofRow_of_fault hnames hfault]
  | none =>
    have hfields : e.Fields (fun c x => c.read r.last? = some x) ↔
        Draft.finish s.columns (Draft.found r.last? s.columns) = .ok e.stored :=
      Draft.finish_found_eq_ok_iff.symm
    obtain ⟨stored, rest⟩ := e
    rw [ofRow_of_no_fault hnames hfault, hfields]
    cases Draft.finish s.columns (Draft.found r.last? s.columns) with
    | error f => simp [Except.map]
    | ok found =>
      constructor
      · intro h
        cases h
        exact ⟨rfl, rfl, rfl⟩
      · rintro ⟨-, hstored, rfl⟩
        cases hstored
        rfl

end Entity

end BoundSql
