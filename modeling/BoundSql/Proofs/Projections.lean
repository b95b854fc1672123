import BoundSql.Proofs.SelectList
import BoundSql.Proofs.TemplateEnds
import Mathlib.Data.List.DropRight

/-!
# The labels of a select list

A column of another source is selected under the name of a column of the entity, and the item of
that column is taken out of the list.  What is taken out is the text that the selection was written
with.  A column that was replaced has another text, so that a second replacement is put beside the
first one, and both have the same label.

A select statement goes on having the items of its replacements, whatever it is extended by
(`Projection.selecting_performAll`).  Under the name of a column there are all its replacements, one
after the other, and the one that counts is the last of them; no more than that one is there exactly
if the column was replaced once at most (`Projection.labelled_items`).
-/

namespace BoundSql

/-! ### Labels -/

theorem Text.plain_of_isNamePart {s : String} (h : ∀ c ∈ s.toList, Template.isNamePart c = true) :
    Text.Plain s := by
  have hspace : ' ' ∉ s.toList := fun hmem => by
    have hpart := h ' ' hmem
    revert hpart
    decide
  exact ⟨fun hin => hspace (hin.subset (by decide)), fun hin => hspace (hin.subset (by decide))⟩

namespace Dialect

variable (d : Dialect)

/-- The quotes are no blanks, no commas and no characters that names consist of. -/
def NameQuotes : Prop :=
  ∀ q ∈ [d.openQuote, d.closeQuote],
    Text.isBlank q = false ∧ q ≠ ',' ∧ Template.isNamePart q = false

instance : Decidable d.NameQuotes := List.decidableBAll _ _

theorem nameQuotes_standard :
    ∀ d ∈ [sqlite, mysql, postgresql, oracle, bracket], d.NameQuotes := by
  decide +kernel

/-- The name between the last quotes of an item.  The value of the item is read under it. -/
def label (item : String) : String :=
  String.ofList (item.toList.dropLast.rtakeWhile (· != d.openQuote))

variable {d}

theorem NameQuotes.plain (hquotes : d.NameQuotes) : d.PlainQuotes := by
  intro q hq
  obtain ⟨hblank, hcomma, hpart⟩ := hquotes q hq
  refine ⟨hblank, fun hmem => ?_⟩
  have hsigns : (", FROM".toList.all fun c =>
      c == ',' || Text.isBlank c || Template.isNamePart c) = true := by decide
  have hsign := List.all_eq_true.mp hsigns q hmem
  rw [hblank, hpart] at hsign
  exact hcomma (by simpa using hsign)

theorem NameQuotes.toList_quote (hquotes : d.NameQuotes) {name : String}
    (hname : ∀ c ∈ name.toList, Template.isNamePart c = true) :
    (d.quote name).toList = d.openQuote :: (name.toList ++ [d.closeQuote]) := by
  -- no character of a name is a quote that would be doubled
  have hsame : ∀ c ∈ name.toList, doubled d.closeQuote c = [c] := by
    intro c hc
    have hne : c ≠ d.closeQuote := by
      rintro rfl
      have hpart := (hquotes d.closeQuote (by simp)).2.2
      exact Bool.false_ne_true (hpart.symm.trans (hname _ hc))
    rw [doubled, if_neg hne]
  rw [d.toList_quote, List.flatMap_congr hsame, List.flatMap_singleton']

theorem NameQuotes.label_quote (hquotes : d.NameQuotes) {name : String}
    (hname : ∀ c ∈ name.toList, Template.isNamePart c = true) (front : String) :
    d.label (front ++ d.quote name) = name := by
  have hkept : ∀ c ∈ name.toList, (c != d.openQuote) = true := by
    intro c hc
    rw [bne_iff_ne]
    rintro rfl
    have hpart := (hquotes d.openQuote (by simp)).2.2
    exact Bool.false_ne_true (hpart.symm.trans (hname _ hc))
  have hchars : (front ++ d.quote name).toList.dropLast =
      front.toList ++ d.openQuote :: name.toList := by
    rw [String.toList_append, hquotes.toList_quote hname, ← List.cons_append, ← List.append_assoc,
      List.dropLast_concat]
  have hread : (front.toList ++ d.openQuote :: name.toList).rtakeWhile (· != d.openQuote) =
      name.toList := by
    rw [List.rtakeWhile, List.reverse_append, List.reverse_cons, List.append_assoc,
      List.takeWhile_append_of_pos (by simpa using hkept)]
    simp
  rw [label, hchars, hread, String.ofList_toList]

theorem NameQuotes.append_quote_inj (hquotes : d.NameQuotes) {name name' front front' : String}
    (hname : ∀ c ∈ name.toList, Template.isNamePart c = true)
    (hname' : ∀ c ∈ name'.toList, Template.isNamePart c = true)
    (h : front ++ d.quote name = front' ++ d.quote name') : front = front' ∧ name = name' := by
  have hlabel : name = name' := by
    rw [← hquotes.label_quote hname front, h, hquotes.label_quote hname']
  subst hlabel
  exact ⟨String.append_left_inj _ |>.mp h, rfl⟩

end Dialect

namespace Fragment

/-- The items of the select list that the fragment starts with. -/
def selectList? (f : Fragment) : Option (List String) :=
  match f.tokens with
  | .text s :: _ =>
    match Text.splitFirst? " FROM ".toList s.toList with
    | none => none
    | some (head, _) =>
      (Text.splitFirst? "SELECT ".toList head).map fun (_, list) => Text.pieces (String.ofList list)
  | _ => none

end Fragment

/-! ### Replacements -/

variable {d : Dialect} {s : Schema} {tableAlias : String}

/-- A column of some source that is selected as a column of the entity. -/
structure Replacement (s : Schema) (tableAlias : String) where
  source : Node
  target : Node
  src : ColumnRef × Option String
  column : Column
  own : Option String
  source_eq : source.column? = some src
  target_eq : target.column? = some (s.ref column, own)
  column_mem : column ∈ s.columns
  own_eq : own.getD tableAlias = tableAlias

namespace Replacement

variable (d) (r : Replacement s tableAlias)

/-- What is written for it in the select list. -/
def item : String := d.columnText ⟨true, tableAlias⟩ r.src ++ " AS " ++ d.quote r.column.name

/-- Its item is found again as it was written: it has no `FROM` in it, and none of its pieces is
blank or the text of a column of the entity. -/
def Lasting : Prop :=
  ¬ " FROM ".toList <:+: (" " ++ r.item d ++ " ").toList ∧
    ∀ piece ∈ Text.pieces (r.item d), Text.allBlank piece = false ∧
      ∀ c ∈ s.columns, piece ≠ d.selected s tableAlias c

instance : Decidable (r.Lasting d) := inferInstanceAs (Decidable (_ ∧ _))

end Replacement

namespace Schema

/-- The names of the columns consist of letters, digits and underscores. -/
def PlainNames (s : Schema) : Prop :=
  ∀ c ∈ s.columns, ∀ x ∈ c.name.toList, Template.isNamePart x = true

instance (s : Schema) : Decidable s.PlainNames :=
  have := fun c : Column => List.decidableBAll (Template.isNamePart · = true) c.name.toList
  List.decidableBAll _ _

variable (d) (s tableAlias)

/-- The select list after replacements: the columns that are left, and the replacements in order. -/
def projected (reps : List (Replacement s tableAlias)) : List String :=
  (s.columns.filter fun c => reps.all (·.column.name != c.name)).map (d.selected s tableAlias) ++
    reps.map (·.item d)

@[simp] theorem projected_nil :
    s.projected d tableAlias [] = s.columns.map (d.selected s tableAlias) := by
  simp [projected]

end Schema

namespace Replacement

theorem item_ne_selected (hquotes : d.NameQuotes) (hnames : s.PlainNames)
    (r : Replacement s tableAlias) {c : Column} (hc : c ∈ s.columns) :
    r.item d ≠ d.selected s tableAlias c := by
  obtain ⟨front, hfront, hselected⟩ := d.exists_selected_eq s tableAlias
  intro heq
  rw [hselected, item] at heq
  obtain ⟨hsame, -⟩ := hquotes.append_quote_inj (hnames _ r.column_mem) (hnames _ hc) heq
  -- in front of the last name, an item ends in a blank and a column does not
  have hlast := congrArg (fun t : String => t.toList.getLast?) hsame
  rcases hfront with rfl | rfl
  · simp at hlast
  · simp at hlast

/-- A source with a plain name, of a table with a plain alias, lasts, and is one piece. -/
theorem lasting_of_plain (hquotes : d.NameQuotes) (hnames : s.PlainNames)
    (r : Replacement s tableAlias) (hsource : Text.Plain r.src.1.name)
    (halias : Text.Plain (" " ++ r.src.2.getD tableAlias)) :
    r.Lasting d ∧ Text.pieces (r.item d) = [r.item d] := by
  have hlabel : Text.Plain r.column.name := Text.plain_of_isNamePart (hnames _ r.column_mem)
  obtain ⟨front, hfront, hsrc⟩ : ∃ front : String, Text.Plain (" " ++ front) ∧
      d.columnText ⟨true, tableAlias⟩ r.src = front ++ d.quote r.src.1.name := by
    by_cases hempty : r.src.2.getD tableAlias = ""
    · exact ⟨"", by decide, by simp [Dialect.columnText, Dialect.columnRef, hempty]⟩
    · refine ⟨r.src.2.getD tableAlias ++ ".", ?_, ?_⟩
      · rw [← String.append_assoc]
        exact halias.append (by decide)
      · simp [Dialect.columnText, Dialect.columnRef, hempty]
  have hplain : Text.Plain (" " ++ r.item d ++ " ") := by
    have hfirst : Text.Plain (" " ++ front ++ d.quote r.src.1.name ++ " AS ") :=
      hquotes.plain.quote hfront hsource (by decide)
    have hsecond : Text.Plain (_ ++ d.quote r.column.name ++ " ") :=
      hquotes.plain.quote hfirst hlabel (by decide)
    rw [item, hsrc]
    simpa only [String.append_assoc] using hsecond
  have hblank : Text.allBlank (r.item d) = false := by
    have hquote := (hquotes d.openQuote List.mem_cons_self).1
    rw [item, Text.allBlank, String.toList_append, d.toList_quote]
    simp [hquote]
  refine ⟨⟨hplain.2, ?_⟩, hplain.pieces⟩
  intro piece hpiece
  rw [hplain.pieces, List.mem_singleton] at hpiece
  subst hpiece
  exact ⟨hblank, fun c hc => r.item_ne_selected hquotes hnames hc⟩

end Replacement

namespace Schema

theorem mem_projected {reps : List (Replacement s tableAlias)} {item : String}
    (h : item ∈ s.projected d tableAlias reps) :
    (∃ c ∈ s.columns, item = d.selected s tableAlias c) ∨ ∃ r ∈ reps, item = r.item d := by
  rcases List.mem_append.mp h with h | h
  · obtain ⟨c, hc, rfl⟩ := List.mem_map.mp h
    exact .inl ⟨c, (List.mem_filter.mp hc).1, rfl⟩
  · obtain ⟨r, hr, rfl⟩ := List.mem_map.mp h
    exact .inr ⟨r, hr, rfl⟩

/-- One more replacement takes the column out of the list, and goes behind it. -/
theorem projected_concat (hquotes : d.NameQuotes) (hnames : s.PlainNames)
    (reps : List (Replacement s tableAlias)) (r : Replacement s tableAlias) :
    s.projected d tableAlias (reps ++ [r]) =
      (s.projected d tableAlias reps).filter (· != d.selected s tableAlias r.column) ++
        [r.item d] := by
  have hother : ∀ item ∈ reps.map (·.item d),
      (item != d.selected s tableAlias r.column) = true := by
    intro item hitem
    obtain ⟨r', -, rfl⟩ := List.mem_map.mp hitem
    exact bne_iff_ne.mpr (r'.item_ne_selected hquotes hnames r.column_mem)
  rw [projected, projected, List.filter_append, List.filter_eq_self.mpr hother,
    ← d.map_selected_filter, List.filter_filter, List.map_append, List.append_assoc]
  congr 3
  funext c
  simp [Bool.and_comm, bne_comm]

theorem projected_ne_nil (reps : List (Replacement s tableAlias)) (hs : s.columns ≠ []) :
    s.projected d tableAlias reps ≠ [] := by
  intro h
  obtain ⟨hcolumns, hreps⟩ := List.append_eq_nil_iff.mp h
  obtain rfl := List.map_eq_nil_iff.mp hreps
  rw [List.map_eq_nil_iff, List.filter_eq_nil_iff] at hcolumns
  obtain ⟨c, hc⟩ := List.exists_mem_of_ne_nil _ hs
  exact hcolumns c hc rfl

end Schema

/-! ### Steps -/

/-- A step of building a select statement: something it is extended by, or a select join. -/
inductive Projection (s : Schema) (tableAlias : String) where
  | extend (op : Extension)
  | replace (r : Replacement s tableAlias)

namespace Projection

def perform : Projection s tableAlias → Building Unit
  | extend op => op.perform
  | replace r => Building.selectJoin r.source r.target

/-- Performs the steps one after the other, those after a failed one included. -/
def performAll (steps : List (Projection s tableAlias)) (b : Builder) : Builder :=
  steps.foldl (fun b step => (step.perform b).2) b

/-- The replacements among the steps, in order. -/
def replacements (steps : List (Projection s tableAlias)) : List (Replacement s tableAlias) :=
  steps.filterMap fun
    | extend _ => none
    | replace r => some r

end Projection

/-- A select statement with some items in its list, in which a filter clause is open. -/
structure Builder.Selecting (d : Dialect) (s : Schema) (tableAlias : String) (items : List String)
    (b : Builder) : Prop where
  dialect : b.dialect = d
  scope : b.scope = ⟨true, tableAlias⟩
  opened : .sentinel ∈ b.body.tokens
  start : ∃ rest, b.body.tokens =
    Token.compact (.text (" " ++ selectionOf d s tableAlias items) :: rest)

namespace Builder

variable {b b' : Builder} {items : List String}

theorem Extended.selecting (h : b.Extended b') (hb : b.Selecting d s tableAlias items) :
    b'.Selecting d s tableAlias items := by
  obtain ⟨rest, hstart⟩ := hb.start
  have hwhole : b.body.tokens = Token.compact
      (.text (" " ++ selectionOf d s tableAlias items) :: rest ++ [] ++ []) := by
    simpa using hstart
  obtain ⟨hopened, front, back, hkept⟩ := h.around List.not_mem_nil hb.opened hwhole
  exact ⟨h.dialect.trans hb.dialect, h.scope.trans hb.scope, hopened, _, hkept⟩

theorem selecting_select (d : Dialect) (s : Schema) (tableAlias : String) :
    ((Builder.new d).select s tableAlias).Selecting d s tableAlias
      (s.projected d tableAlias []) := by
  obtain ⟨hdialect, hscope, hopened, front, back, haround⟩ :=
    Extension.containing_select d s tableAlias
  rw [Schema.projected_nil]
  exact ⟨hdialect, hscope, hopened, _, haround⟩

theorem Selecting.exists_first (hb : b.Selecting d s tableAlias items) :
    ∃ more after, b.body.tokens =
      .text (" " ++ selectionOf d s tableAlias items ++ more) :: after := by
  obtain ⟨rest, hstart⟩ := hb.start
  obtain ⟨more, after, hcons⟩ := Token.exists_consText (Token.compact rest)
  exact ⟨more, after, hstart.trans (hcons _ (by simp))⟩

end Builder

/-! ### Runs -/

section Runs

variable (hquotes : d.NameQuotes) (halias : Text.Plain (" " ++ tableAlias)) (hnames : s.PlainNames)
  {b : Builder} {reps : List (Replacement s tableAlias)}

include hquotes halias hnames

/-- The pieces of a select list are dropped just as its items are. -/
theorem Schema.intercalate_kept (hreps : ∀ r ∈ reps, r.Lasting d) (r : Replacement s tableAlias) :
    ", ".intercalate (((((s.projected d tableAlias reps).flatMap Text.pieces).filter
        (!Text.allBlank ·)).filter (· != d.selected s tableAlias r.column)) ++ [r.item d]) =
      ", ".intercalate (s.projected d tableAlias (reps ++ [r])) := by
  rw [List.filter_filter, Schema.projected_concat hquotes hnames, Text.intercalate_kept_eq_iff]
  intro item hitem piece hpiece
  rcases Schema.mem_projected hitem with ⟨c, hc, rfl⟩ | ⟨r', hr', rfl⟩
  · obtain ⟨hpieces, hblank, -⟩ := Dialect.separated_of_plain (s := s) hquotes.plain halias
      (Text.plain_of_isNamePart (hnames c hc))
    rw [hpieces, List.mem_singleton] at hpiece
    simp [hpiece, hblank]
  · obtain ⟨hblank, hne⟩ := (hreps r' hr').2 piece hpiece
    have hpiece' := bne_iff_ne.mpr (hne _ r.column_mem)
    have hitem' := bne_iff_ne.mpr (r'.item_ne_selected hquotes hnames r.column_mem)
    rw [hblank, hpiece', hitem']
    rfl

theorem Replacement.selectionOf_replacing (hreps : ∀ r ∈ reps, r.Lasting d)
    (r : Replacement s tableAlias) :
    selectionOf d s tableAlias (d.replacing ⟨true, tableAlias⟩ r.src (s.ref r.column, r.own)
        (((s.projected d tableAlias reps).flatMap Text.pieces).filter (!Text.allBlank ·))) =
      selectionOf d s tableAlias (s.projected d tableAlias (reps ++ [r])) := by
  have hlist := Schema.intercalate_kept hquotes halias hnames hreps r
  rw [item] at hlist
  rw [d.replacing_column s r.own_eq, selectionOf, selectionOf, hlist]

theorem Schema.not_infix_projected (hreps : ∀ r ∈ reps, r.Lasting d) :
    ∀ item ∈ s.projected d tableAlias reps,
      ¬ " FROM ".toList <:+: (" " ++ item ++ " ").toList := by
  intro item hitem
  rcases Schema.mem_projected hitem with ⟨c, hc, rfl⟩ | ⟨r, hr, rfl⟩
  · exact (Dialect.separated_of_plain (s := s) hquotes.plain halias
      (Text.plain_of_isNamePart (hnames c hc))).2.2
  · exact (hreps r hr).1

/-- A select join succeeds, and replaces one more column. -/
theorem Projection.selecting_replace (hreps : ∀ r ∈ reps, r.Lasting d)
    (r : Replacement s tableAlias)
    (hb : b.Selecting d s tableAlias (s.projected d tableAlias reps)) :
    (Building.selectJoin r.source r.target b).1 = .ok () ∧
      (Building.selectJoin r.source r.target b).2.Selecting d s tableAlias
        (s.projected d tableAlias (reps ++ [r])) := by
  obtain ⟨rest, hstart⟩ := hb.start
  obtain ⟨more, after, hcons⟩ := Token.exists_consText (Token.compact rest)
  have hbody : b.body.tokens = .text (" " ++ selectionOf d s tableAlias
      (s.projected d tableAlias reps) ++ more) :: after := by
    rw [hstart]
    exact hcons _ (by simp)
  have hrun := Building.selectJoin_selection hb.dialect hb.scope hbody
    (Schema.projected_ne_nil reps (List.ne_nil_of_mem r.column_mem))
    (Schema.not_infix_projected hquotes halias hnames hreps) r.source_eq r.target_eq
  rw [r.selectionOf_replacing hquotes halias hnames hreps] at hrun
  have hopened : .sentinel ∈ rest := by
    have hmem := hb.opened
    rw [hstart, Token.sentinel_mem_compact] at hmem
    simpa using hmem
  have hkept : .sentinel ∈ Token.compact (.text (" " ++ selectionOf d s tableAlias
      (s.projected d tableAlias (reps ++ [r]))) :: rest) :=
    Token.sentinel_mem_compact.mpr (List.mem_cons_of_mem _ hopened)
  rw [hrun, ← hcons _ (by simp)]
  exact ⟨rfl, hb.dialect, hb.scope, hkept, rest, rfl⟩

/-- Whatever the steps are, the list of the statement is that of the replacements among them. -/
theorem Projection.selecting_performAll (steps : List (Projection s tableAlias))
    (hsteps : ∀ r ∈ reps ++ replacements steps, r.Lasting d)
    (hb : b.Selecting d s tableAlias (s.projected d tableAlias reps)) :
    (performAll steps b).Selecting d s tableAlias
      (s.projected d tableAlias (reps ++ replacements steps)) := by
  induction steps generalizing b reps with
  | nil =>
    have hnone : reps ++ replacements ([] : List (Projection s tableAlias)) = reps :=
      List.append_nil reps
    rw [hnone]
    exact hb
  | cons step steps ih =>
    cases step with
    | extend op =>
      have hopening := Builder.last_opening_of_compact hb.opened hb.start.choose_spec
      exact ih hsteps ((Extension.extended_perform op hopening).selecting hb)
    | replace r =>
      have hreps : ∀ r' ∈ reps, r'.Lasting d := fun r' hr' =>
        hsteps r' (List.mem_append_left _ hr')
      have hnext := (selecting_replace hquotes halias hnames hreps r hb).2
      have hsplit : reps ++ replacements (.replace r :: steps) =
          reps ++ [r] ++ replacements steps := by
        rw [List.append_assoc]
        rfl
      rw [hsplit] at hsteps ⊢
      exact ih hsteps hnext

end Runs

/-! ### What stands under a label -/

namespace Schema

variable (d) (s tableAlias)

/-- The replacements of a column, in order. -/
def onto (reps : List (Replacement s tableAlias)) (c : Column) : List (Replacement s tableAlias) :=
  reps.filter (·.column.name == c.name)

/-- What a column is to be read from: the last replacement of it, or the column if there is none. -/
def latest (reps : List (Replacement s tableAlias)) (c : Column) : String :=
  ((s.onto tableAlias reps c).map (·.item d)).getLast?.getD (d.selected s tableAlias c)

variable {d s tableAlias}

theorem filter_name_eq (hdistinct : (s.columns.map (·.name)).Nodup) {c : Column}
    (hc : c ∈ s.columns) : s.columns.filter (·.name == c.name) = [c] := by
  obtain ⟨before, after, hsplit⟩ := List.append_of_mem hc
  rw [hsplit] at hdistinct ⊢
  rw [List.map_append, List.map_cons, List.nodup_middle, List.nodup_cons, ← List.map_append]
    at hdistinct
  have hother : ∀ c' ∈ before ++ after, ¬ (c'.name == c.name) = true := by
    intro c' hc' heq
    exact hdistinct.1 (beq_iff_eq.mp heq ▸ List.mem_map_of_mem hc')
  obtain ⟨hbefore, hafter⟩ := List.forall_mem_append.mp hother
  rw [List.filter_append, List.filter_eq_nil_iff.mpr hbefore,
    List.filter_cons_of_pos (by exact beq_self_eq_true c.name), List.filter_eq_nil_iff.mpr hafter]
  rfl

/-- Under the name of a column there is the column, or else its replacements. -/
theorem filter_label_projected (hquotes : d.NameQuotes) (hnames : s.PlainNames)
    (hdistinct : (s.columns.map (·.name)).Nodup) (reps : List (Replacement s tableAlias))
    {c : Column} (hc : c ∈ s.columns) :
    (s.projected d tableAlias reps).filter (d.label · == c.name) =
      if s.onto tableAlias reps c = [] then [d.selected s tableAlias c]
      else (s.onto tableAlias reps c).map (·.item d) := by
  have hselected : ∀ c' ∈ s.columns, d.label (d.selected s tableAlias c') = c'.name := by
    obtain ⟨front, -, hselected⟩ := d.exists_selected_eq s tableAlias
    intro c' hc'
    rw [hselected, hquotes.label_quote (hnames c' hc')]
  have hitem : ∀ r : Replacement s tableAlias, d.label (r.item d) = r.column.name :=
    fun r => hquotes.label_quote (hnames _ r.column_mem) _
  have hreplaced : (reps.map (·.item d)).filter (d.label · == c.name) =
      (s.onto tableAlias reps c).map (·.item d) := by
    rw [List.filter_map]
    exact congrArg (List.map _) (List.filter_congr fun r _ => by rw [Function.comp_apply, hitem])
  have hcolumns : ((s.columns.filter fun c' => reps.all (·.column.name != c'.name)).map
      (d.selected s tableAlias)).filter (d.label · == c.name) =
        if s.onto tableAlias reps c = [] then [d.selected s tableAlias c] else [] := by
    have hnamed : ∀ c' ∈ s.columns.filter fun c' => reps.all (·.column.name != c'.name),
        (d.label (d.selected s tableAlias c') == c.name) = (c'.name == c.name) := by
      intro c' hc'
      rw [hselected c' (List.mem_filter.mp hc').1]
    rw [List.filter_map]
    refine (congrArg (List.map _) (List.filter_congr hnamed)).trans ?_
    have hstays : (reps.all (·.column.name != c.name)) = (s.onto tableAlias reps c).isEmpty := by
      rw [Bool.eq_iff_iff, List.all_eq_true, List.isEmpty_iff, onto, List.filter_eq_nil_iff]
      simp only [bne_iff_ne, beq_iff_eq]
    rw [List.filter_comm, filter_name_eq hdistinct hc, List.filter_singleton, hstays]
    cases s.onto tableAlias reps c <;> rfl
  rw [projected, List.filter_append, hreplaced, hcolumns]
  split
  · next hnone => rw [hnone]; rfl
  · rfl

end Schema

/-- The items of a statement that starts with its selection are those that were selected. -/
theorem Builder.Selecting.selectList? {b : Builder} {items : List String}
    (hb : b.Selecting d s tableAlias items) (hne : items ≠ [])
    (hfrom : ∀ item ∈ items, ¬ " FROM ".toList <:+: (" " ++ item ++ " ").toList) :
    b.body.selectList? = some (items.flatMap Text.pieces) := by
  obtain ⟨more, after, hfirst⟩ := hb.exists_first
  have hbody : b.body.tokens = .text (" SELECT " ++ ", ".intercalate items ++ " FROM " ++
      (d.tableRef s.table (some tableAlias) ++ more)) :: after := by
    refine hfirst.trans (congrArg (fun t => Token.text t :: after) ?_)
    apply String.toList_injective
    simp [selectionOf]
  obtain ⟨hhead, hlist⟩ :=
    Fragment.splitFirst?_list hfrom (d.tableRef s.table (some tableAlias) ++ more)
  rw [Fragment.selectList?, hbody]
  simp only [hhead, hlist, Option.map_some, String.ofList_toList]
  rw [Text.pieces_intercalate hne]

namespace Projection

/-- Where no item is cut into pieces, the list reads as what was selected. -/
theorem selectList?_performAll (hquotes : d.NameQuotes) (halias : Text.Plain (" " ++ tableAlias))
    (hnames : s.PlainNames) (hcolumns : s.columns ≠ []) (steps : List (Projection s tableAlias))
    (hreps : ∀ r ∈ replacements steps, r.Lasting d ∧ Text.pieces (r.item d) = [r.item d]) :
    (performAll steps ((Builder.new d).select s tableAlias)).body.selectList? =
      some (s.projected d tableAlias (replacements steps)) := by
  have hlasting : ∀ r ∈ replacements steps, r.Lasting d := fun r hr => (hreps r hr).1
  have hlist := (selecting_performAll hquotes halias hnames steps hlasting
    (Builder.selecting_select d s tableAlias)).selectList?
      (Schema.projected_ne_nil _ hcolumns)
      (Schema.not_infix_projected hquotes halias hnames hlasting)
  have hpieces : ∀ item ∈ s.projected d tableAlias (replacements steps),
      Text.pieces item = [item] := by
    intro item hitem
    rcases Schema.mem_projected hitem with ⟨c, hc, rfl⟩ | ⟨r, hr, rfl⟩
    · exact (Dialect.separated_of_plain (s := s) hquotes.plain halias
        (Text.plain_of_isNamePart (hnames c hc))).1
    · exact (hreps r hr).2
  refine hlist.trans (congrArg some ?_)
  show (s.projected d tableAlias (replacements steps)).flatMap Text.pieces = _
  rw [List.flatMap_congr hpieces, List.flatMap_singleton']

/-- Columns of other sources, selected as columns of the entity one after the other, whatever is
done to the statement in between.  All of these select joins succeed.  Under the name of each column
the list has the column, or else all its replacements in order; what the column is to be read from
is the last of them.  It is the only one there exactly if the column was replaced once at most: no
replacement takes an earlier one out of the list. -/
theorem labelled_items (d : Dialect) (s : Schema) (tableAlias : String) (hquotes : d.NameQuotes)
    (halias : Text.Plain (" " ++ tableAlias)) (hdistinct : (s.columns.map (·.name)).Nodup)
    (hnames : s.PlainNames) (steps : List (Projection s tableAlias))
    (hlasting : ∀ r ∈ replacements steps, r.Lasting d) :
    let start := (Builder.new d).select s tableAlias
    let b := performAll steps start
    let reps := replacements steps
    let items := s.projected d tableAlias reps
    (∀ before r after, steps = before ++ .replace r :: after →
      (Building.selectJoin r.source r.target (performAll before start)).1 = .ok ()) ∧
    (∃ more rest, b.body.tokens =
      .text (" " ++ selectionOf d s tableAlias items ++ more) :: rest) ∧
    (s.columns ≠ [] → (∀ r ∈ reps, Text.pieces (r.item d) = [r.item d]) →
      b.body.selectList? = some items) ∧
    ∀ c ∈ s.columns,
      let labelled := items.filter (d.label · == c.name)
      let replaced := (s.onto tableAlias reps c).map (·.item d)
      (labelled = if replaced = [] then [d.selected s tableAlias c] else replaced) ∧
      labelled.getLast? = some (s.latest d tableAlias reps c) ∧
      (labelled = [s.latest d tableAlias reps c] ↔ replaced.length ≤ 1) := by
  intro start b reps items
  have hrun : ∀ steps : List (Projection s tableAlias), (∀ r ∈ replacements steps, r.Lasting d) →
      (performAll steps start).Selecting d s tableAlias
        (s.projected d tableAlias (replacements steps)) := fun steps hsteps =>
    selecting_performAll hquotes halias hnames steps hsteps
      (Builder.selecting_select d s tableAlias)
  have hb : b.Selecting d s tableAlias items := hrun steps hlasting
  refine ⟨?_, hb.exists_first, ?_, ?_⟩
  · -- a select join starts from a statement with the replacements in front of it
    intro before r after hsteps
    have hbefore : ∀ r ∈ replacements before, r.Lasting d := by
      intro r' hr'
      refine hlasting r' ?_
      rw [hsteps, replacements, List.filterMap_append]
      exact List.mem_append_left _ hr'
    exact (selecting_replace hquotes halias hnames hbefore r (hrun before hbefore)).1
  · intro hcolumns hwhole
    exact selectList?_performAll hquotes halias hnames hcolumns steps fun r hr =>
      ⟨hlasting r hr, hwhole r hr⟩
  · -- an item under the name of the column stays, so that the last one is the one that counts
    intro c hc labelled replaced
    have hlabelled : labelled =
        if replaced = [] then [d.selected s tableAlias c] else replaced := by
      simpa only [replaced, List.map_eq_nil_iff] using
        Schema.filter_label_projected hquotes hnames hdistinct reps hc
    have hlatest : s.latest d tableAlias reps c =
        replaced.getLast?.getD (d.selected s tableAlias c) := rfl
    refine ⟨hlabelled, ?_, ?_⟩
    · rw [hlabelled, hlatest]
      rcases replaced with _ | ⟨item, rest⟩
      · rfl
      · simp [List.getLast?_cons]
    · rw [hlabelled, hlatest]
      rcases replaced with _ | ⟨first, _ | ⟨second, rest⟩⟩ <;> simp

/-- The name of the customer, as the name that the order has. -/
def customerName : Replacement .order "t" where
  source := .member ⟨"name", "name", "customer"⟩ (some "c")
  target := .member ⟨"customer_name", "customer", "orders"⟩ none
  src := (⟨"name", "name", "customer"⟩, some "c")
  column := ⟨"customer_name", "customer", Schema.text, false, none⟩
  own := none
  source_eq := rfl
  target_eq := rfl
  column_mem := .tail _ (.tail _ (.head _))
  own_eq := rfl

/-- A column of the customer, as the note of the order. -/
def asNote (name : String) : Replacement .order "t" where
  source := .member ⟨name, name, "customer"⟩ (some "c")
  target := .member ⟨"note", "note", "orders"⟩ none
  src := (⟨name, name, "customer"⟩, some "c")
  column := .plain "note" (.option Schema.text)
  own := none
  source_eq := rfl
  target_eq := rfl
  column_mem := .tail _ (.tail _ (.tail _ (.tail _ (.head _))))
  own_eq := rfl

/-- The note is replaced twice, and another column in between. -/
theorem labelled_items_note :
    let steps : List (Projection .order "t") := [.extend (.refine (.join Refinement.customers)),
      .replace (asNote "name"), .replace customerName, .extend Extension.noted,
      .replace (asNote "id")]
    let items := ["t.\x60id\x60", "t.\x60status\x60", "t.\x60amount\x60", "t.\x60created\x60",
      "c.\x60name\x60 AS \x60note\x60", "c.\x60name\x60 AS \x60customer_name\x60",
      "c.\x60id\x60 AS \x60note\x60"]
    (performAll steps ((Builder.new .sqlite).select .order "t")).body.selectList? = some items ∧
      items.filter (Dialect.sqlite.label · == "note") =
        ["c.\x60name\x60 AS \x60note\x60", "c.\x60id\x60 AS \x60note\x60"] ∧
      items.filter (Dialect.sqlite.label · == "customer_name") =
        ["c.\x60name\x60 AS \x60customer_name\x60"] := by
  intro steps items
  have hplain : ∀ r ∈ replacements steps,
      Text.Plain r.src.1.name ∧ Text.Plain (" " ++ r.src.2.getD "t") := by
    intro r hr
    have hreps : r = asNote "name" ∨ r = customerName ∨ r = asNote "id" := by
      simpa [steps, replacements] using hr
    rcases hreps with rfl | rfl | rfl <;> decide +kernel
  have hnames : Schema.order.PlainNames := by decide +kernel
  have hlasting : ∀ r ∈ replacements steps, r.Lasting .sqlite ∧
      Text.pieces (r.item .sqlite) = [r.item .sqlite] := fun r hr =>
    r.lasting_of_plain (by decide) hnames (hplain r hr).1 (hplain r hr).2
  obtain ⟨-, -, hlist, hlabels⟩ := labelled_items .sqlite .order "t" (by decide) (by decide)
    (by decide +kernel) hnames steps fun r hr => (hlasting r hr).1
  have hitems : Schema.order.projected .sqlite "t" (replacements steps) = items := by
    decide +kernel
  have hlist := hlist (List.cons_ne_nil _ _) fun r hr => (hlasting r hr).2
  have hnote := (hlabels (asNote "id").column (asNote "id").column_mem).1
  have hname := (hlabels customerName.column customerName.column_mem).1
  rw [hitems] at hlist hnote hname
  exact ⟨hlist, hnote.trans (by decide +kernel), hname.trans (by decide +kernel)⟩

/-- A column that is replaced once more is read from two sources. -/
theorem replacement_stays :
    ¬ ∀ (d : Dialect) (s : Schema) (tableAlias : String) (steps : List (Projection s tableAlias)),
      d.NameQuotes → Text.Plain (" " ++ tableAlias) →
      (s.columns.map (·.name)).Nodup → s.PlainNames →
      (∀ r ∈ replacements steps, Text.Plain r.src.1.name) →
        ∃ items, (performAll steps ((Builder.new d).select s tableAlias)).body.selectList? =
          some items ∧ ∀ c ∈ s.columns, items.filter (d.label · == c.name) =
            [s.latest d tableAlias (replacements steps) c] := by
  intro hclaim
  let steps : List (Projection .order "t") := [.extend (.refine (.join Refinement.customers)),
    .replace (asNote "name"), .replace (asNote "id")]
  have hplain : ∀ r ∈ replacements steps,
      Text.Plain r.src.1.name ∧ Text.Plain (" " ++ r.src.2.getD "t") := by
    intro r hr
    have hreps : r = asNote "name" ∨ r = asNote "id" := by
      simpa [steps, replacements] using hr
    rcases hreps with rfl | rfl <;> decide +kernel
  have hnames : Schema.order.PlainNames := by decide +kernel
  obtain ⟨items, hlist, hlabels⟩ := hclaim .sqlite .order "t" steps (by decide) (by decide)
    (by decide +kernel) hnames fun r hr => (hplain r hr).1
  rw [selectList?_performAll (by decide) (by decide) hnames (List.cons_ne_nil _ _) steps fun r hr =>
    r.lasting_of_plain (by decide) hnames (hplain r hr).1 (hplain r hr).2] at hlist
  have hnote := hlabels (asNote "id").column (asNote "id").column_mem
  rw [← Option.some.inj hlist] at hnote
  revert hnote
  decide +kernel

end Projection

end BoundSql
