import BoundSql.Proofs.EmbeddedStatement
import BoundSql.Proofs.Quoting
import BoundSql.Proofs.Splitting

/-!
# Columns replaced in a select list

A column of the selection is replaced in its text: the text is cut at the first `FROM`, and in front
of that at each comma with a space behind it; the pieces are taken for the columns.  They are the
columns where no column is written with such a comma or with a `FROM` between spaces in it, which a
name may have between its quotes (`Dialect.separated_of_plain`).

A name with commas does no harm by itself, since its pieces are joined again.  What is replaced is
the column asked for, and that alone, exactly if all pieces of this column are dropped and none of
another one (`Building.selectJoin_replaces`): a piece is dropped where it is blank or the text of
the column.  A column in several pieces is not found, so that it stays next to what was to replace
it (`Building.replaced_column_stays`).
-/

namespace BoundSql

namespace Text

/-! ### Pieces -/

/-- No comma with a space behind it, and no `FROM` between spaces. -/
def Plain (s : String) : Prop :=
  ¬ ", ".toList <:+: s.toList ∧ ¬ " FROM ".toList <:+: s.toList

instance (s : String) : Decidable (Plain s) := inferInstanceAs (Decidable (_ ∧ _))

theorem Plain.append {s t : String} (h : Plain s) (ht : ' ' ∉ t.toList) : Plain (s ++ t) := by
  have hkept : ∀ init : List Char, init ++ [' '] <:+: (s ++ t).toList →
      init ++ [' '] <:+: s.toList := by
    intro init hin
    rw [String.toList_append] at hin
    exact infix_of_not_mem ht hin
  exact ⟨fun hin => h.1 (hkept [','] hin), fun hin => h.2 (hkept " FROM".toList hin)⟩

theorem plain_of_not_mem {s : String} (h : ∀ q ∈ ", ".toList, q ∉ s.toList) :
    Plain (" " ++ s) := by
  have hchars : (" " ++ s).toList = ' ' :: s.toList := by simp
  unfold Plain
  rw [hchars]
  constructor
  · intro hin
    have hcomma : ',' ∈ ' ' :: s.toList := hin.subset (by decide)
    exact h ',' (by decide) (by simpa using hcomma)
  · intro hin
    have hlast : " FROM".toList ++ [' '] <:+: [' '] :=
      infix_of_not_mem (a := [' ']) (h ' ' (by decide)) hin
    revert hlast
    decide

/-- The pieces of a text between the commas that have a space behind them. -/
def pieces (s : String) : List String := (splitAt ", ".toList s.toList).map String.ofList

variable {s piece : String} {items : List String}

theorem intercalate_pieces (s : String) : ", ".intercalate (pieces s) = s := by
  have hsame : String.toList ∘ String.ofList = id := funext fun cs => String.toList_ofList
  rw [← String.toList_inj, String.toList_intercalate, pieces, List.map_map, hsame, List.map_id]
  exact intercalate_splitAt ',' [' '] s.toList

theorem pieces_injective : Function.Injective pieces := by
  intro s t h
  rw [← intercalate_pieces s, h, intercalate_pieces]

theorem pieces_of_mem (h : piece ∈ pieces s) : pieces piece = [piece] := by
  obtain ⟨cs, hcs, rfl⟩ := List.mem_map.mp h
  have hwhole : splitAt ", ".toList cs = [cs] := splitAt_of_mem hcs
  have hchars : (String.ofList cs).toList = cs := String.toList_ofList
  rw [pieces, hchars, hwhole]
  rfl

theorem pieces_of_not_infix (h : ¬ ", ".toList <:+: s.toList) : pieces s = [s] := by
  have hwhole : splitAt ", ".toList s.toList = [s.toList] := splitAt_of_not_infix h
  rw [pieces, hwhole, List.map_singleton, String.ofList_toList]

theorem Plain.pieces (h : Plain (" " ++ s ++ " ")) : pieces s = [s] := by
  apply pieces_of_not_infix
  intro hin
  apply h.1
  rw [String.toList_append, String.toList_append]
  exact List.infix_append_of_infix_left (List.infix_append_of_infix_right hin)

theorem pieces_intercalate (h : items ≠ []) :
    pieces (", ".intercalate items) = items.flatMap pieces := by
  have hitems : items.map String.toList ≠ [] := by simpa using h
  have hsplit : splitAt ", ".toList (", ".toList.intercalate (items.map String.toList)) = _ :=
    splitAt_intercalate (by decide) hitems
  rw [pieces, String.toList_intercalate, hsplit, List.flatMap_map, List.map_flatMap]
  rfl

/-! ### Pieces that are kept -/

section Kept

variable {α β : Type} {f : α → List β} {keep : β → Bool} {stays : α → Bool} {xs : List α}

theorem sublist_filter_flatMap (h : ∀ x ∈ xs, stays x = true → ∀ y ∈ f x, keep y = true) :
    ((xs.filter stays).flatMap f).Sublist ((xs.flatMap f).filter keep) := by
  induction xs with
  | nil => exact List.Sublist.refl _
  | cons x xs ih =>
    obtain ⟨hfirst, hrest⟩ := List.forall_mem_cons.mp h
    rw [List.flatMap_cons, List.filter_append, List.filter_cons]
    by_cases hstays : stays x = true
    · rw [if_pos hstays, List.flatMap_cons, List.filter_eq_self.mpr (hfirst hstays)]
      exact (List.append_sublist_append_left _).mpr (ih hrest)
    · rw [if_neg hstays]
      exact (ih hrest).trans (List.sublist_append_right _ _)

/-- Pieces are dropped as texts are left out, exactly if a piece is kept where its text stays. -/
theorem filter_flatMap_eq_iff :
    (xs.flatMap f).filter keep = (xs.filter stays).flatMap f ↔
      ∀ x ∈ xs, ∀ y ∈ f x, keep y = stays x := by
  constructor
  · intro h
    have hkept : ∀ x ∈ xs, stays x = true → ∀ y ∈ f x, keep y = true := by
      intro x hx hstays y hy
      have hmem : y ∈ (xs.filter stays).flatMap f :=
        List.mem_flatMap.mpr ⟨x, List.mem_filter.mpr ⟨hx, hstays⟩, hy⟩
      rw [← h] at hmem
      exact (List.mem_filter.mp hmem).2
    induction xs with
    | nil => simp
    | cons x xs ih =>
      obtain ⟨hfirst, hrest⟩ := List.forall_mem_cons.mp hkept
      have hsub := sublist_filter_flatMap hrest
      rw [List.flatMap_cons, List.filter_append, List.filter_cons] at h
      refine List.forall_mem_cons.mpr ?_
      cases hstays : stays x with
      | true =>
        rw [if_pos hstays, List.flatMap_cons, List.filter_eq_self.mpr (hfirst hstays),
          List.append_cancel_left_eq] at h
        exact ⟨hfirst hstays, ih h hrest⟩
      | false =>
        -- all that is kept comes from the other texts, so nothing of this one is
        rw [if_neg (by simp [hstays])] at h
        have hnone : (f x).filter keep = [] := by
          have hlength := congrArg List.length h
          rw [List.length_append] at hlength
          have hle := hsub.length_le
          exact List.length_eq_zero_iff.mp (by omega)
        rw [hnone, List.nil_append] at h
        exact ⟨fun y hy => by simpa using List.filter_eq_nil_iff.mp hnone y hy, ih h hrest⟩
  · intro h
    induction xs with
    | nil => rfl
    | cons x xs ih =>
      obtain ⟨hfirst, hrest⟩ := List.forall_mem_cons.mp h
      rw [List.flatMap_cons, List.filter_append, List.filter_cons, ih hrest]
      cases hstays : stays x with
      | true =>
        rw [hstays] at hfirst
        rw [List.filter_eq_self.mpr hfirst]
        rfl
      | false =>
        have hnone : (f x).filter keep = [] :=
          List.filter_eq_nil_iff.mpr fun y hy => by simp [hfirst y hy, hstays]
        rw [hnone]
        rfl

end Kept

theorem flatMap_pieces_of_mem {parts : List String} (h : ∀ piece ∈ parts, ∃ t, piece ∈ pieces t) :
    parts.flatMap pieces = parts := by
  induction parts with
  | nil => rfl
  | cons piece parts ih =>
    obtain ⟨⟨t, hpiece⟩, hrest⟩ := List.forall_mem_cons.mp h
    rw [List.flatMap_cons, pieces_of_mem hpiece, ih hrest]
    rfl

/-- Joining the pieces that are kept is joining the texts that stay. -/
theorem intercalate_kept_eq_iff {keep stays : String → Bool} {last : String} :
    ", ".intercalate ((items.flatMap pieces).filter keep ++ [last]) =
        ", ".intercalate (items.filter stays ++ [last]) ↔
      ∀ item ∈ items, ∀ piece ∈ pieces item, keep piece = stays item := by
  have hsame : ((items.flatMap pieces).filter keep).flatMap pieces =
      (items.flatMap pieces).filter keep := by
    apply flatMap_pieces_of_mem
    intro piece hpiece
    obtain ⟨item, -, hitem⟩ := List.mem_flatMap.mp (List.mem_filter.mp hpiece).1
    exact ⟨item, hitem⟩
  rw [← filter_flatMap_eq_iff, ← pieces_injective.eq_iff, pieces_intercalate (by simp),
    pieces_intercalate (by simp), List.flatMap_append, List.flatMap_append,
    List.append_cancel_right_eq, hsame]

end Text

namespace Fragment

/-! ### Editing -/

/-- What is found in a list are the pieces of its items that are not blank. -/
theorem selectItems_intercalate {items : List String} (h : items ≠ []) :
    selectItems (", ".intercalate items).toList =
      (items.flatMap Text.pieces).filter (!Text.allBlank ·) := by
  rw [← Text.pieces_intercalate h]
  rfl

/-- No `FROM` stands between spaces in a list where none stands in an item. -/
theorem not_infix_intercalate {items : List String}
    (h : ∀ item ∈ items, ¬ " FROM ".toList <:+: (" " ++ item ++ " ").toList) :
    ¬ " FROM ".toList <:+: (" " ++ ", ".intercalate items ++ " ").toList := by
  induction items with
  | nil => decide +kernel
  | cons item items ih =>
    obtain ⟨hfirst, hrest⟩ := List.forall_mem_cons.mp h
    cases items with
    | nil => simpa using hfirst
    | cons next items =>
      intro hin
      have hchars : (" " ++ ", ".intercalate (item :: next :: items) ++ " ").toList =
          (" " ++ item).toList ++ ',' ::
            (" " ++ ", ".intercalate (next :: items) ++ " ").toList := by
        simp
      rw [hchars] at hin
      rcases Text.infix_or_infix (by decide) hin with hin | hin
      · refine hfirst (hin.trans ?_)
        rw [String.toList_append (s := " " ++ item)]
        exact (List.prefix_append _ _).isInfix
      · exact ih hrest hin

/-- The list between the first `SELECT` and its `FROM` is found where no item has a `FROM`. -/
theorem splitFirst?_list {items : List String}
    (h : ∀ item ∈ items, ¬ " FROM ".toList <:+: (" " ++ item ++ " ").toList) (tail : String) :
    Text.splitFirst? " FROM ".toList
        (" SELECT " ++ ", ".intercalate items ++ " FROM " ++ tail).toList =
      some ((" SELECT " ++ ", ".intercalate items).toList, tail.toList) ∧
    Text.splitFirst? "SELECT ".toList (" SELECT " ++ ", ".intercalate items).toList =
      some (" ".toList, (", ".intercalate items).toList) := by
  set list := ", ".intercalate items with hlist
  have hno : ¬ " FROM ".toList <:+:
      (" SELECT " ++ list).toList ++ (" FROM ".toList).dropLast := by
    intro hin
    have hchars : (" SELECT " ++ list).toList ++ (" FROM ".toList).dropLast =
        " SELEC".toList ++ 'T' :: ((" " ++ list ++ " ").toList ++ "FROM".toList) := by
      simp
    rw [hchars] at hin
    -- what is looked for has no T, so it is in front of that letter or in the list
    rcases Text.infix_or_infix (by decide) hin with hin | hin
    · revert hin
      decide
    · have hlast : " FROM".toList ++ [' '] <:+: (" " ++ list ++ " ").toList :=
        Text.infix_of_not_mem (by decide) hin
      exact not_infix_intercalate h hlast
  constructor
  · have hchars : (" SELECT " ++ list ++ " FROM " ++ tail).toList =
        (" SELECT " ++ list).toList ++ (" FROM ".toList ++ tail.toList) := by
      rw [String.toList_append, String.toList_append, List.append_assoc]
    rw [hchars]
    exact Text.splitFirst?_append tail.toList hno (by decide)
  · have hchars : (" SELECT " ++ list).toList =
        " ".toList ++ ("SELECT ".toList ++ list.toList) := by
      simp
    rw [hchars]
    exact Text.splitFirst?_append list.toList (by decide) (by decide)

theorem editText?_list (edit : List String → List String) {items : List String} (hne : items ≠ [])
    (h : ∀ item ∈ items, ¬ " FROM ".toList <:+: (" " ++ item ++ " ").toList) (tail : String) :
    editText? edit (" SELECT " ++ ", ".intercalate items ++ " FROM " ++ tail) =
      some (" SELECT " ++ ", ".intercalate
        (edit ((items.flatMap Text.pieces).filter (!Text.allBlank ·))) ++ " FROM " ++ tail) := by
  obtain ⟨hfrom, hselect⟩ := splitFirst?_list h tail
  rw [editText?, hfrom]
  simp only [hselect, Option.map_some, String.ofList_toList]
  rw [selectItems_intercalate hne]
  rfl

end Fragment

namespace Dialect

/-! ### What columns are written with -/

section Written

variable {close : Char} {pattern body : List Char}

/-- Doubling the closing quotes of a name brings nothing else into it. -/
theorem infix_of_doubled (h : close ∉ pattern) (hin : pattern <:+: body.flatMap (doubled close)) :
    pattern <:+: body := by
  induction body with
  | nil => exact hin
  | cons c body ih =>
    have hbody : body <:+: c :: body := (List.suffix_cons c body).isInfix
    by_cases hc : c = close
    · subst hc
      rw [List.flatMap_cons, doubled, if_pos rfl] at hin
      rcases Text.infix_or_infix (a := [c]) h hin with hin | hin
      · rcases Text.infix_or_infix (a := []) h hin with hin | hin
        · exact hin.trans List.nil_infix
        · exact hin.trans List.nil_infix
      · exact (ih hin).trans hbody
    · have hstarts := prefix_doubled h (c :: body)
      rw [List.flatMap_cons, doubled, if_neg hc] at hin hstarts
      rcases List.infix_cons_iff.mp hin with hstart | hrest
      · exact (hstarts.mp hstart).isInfix
      · exact (ih hrest).trans hbody

variable (d : Dialect)

/-- What occurs around a quoted name, and has no quotes, occurs beside the name or in it. -/
theorem infix_of_quote {name : String} {a b : List Char} (hopen : d.openQuote ∉ pattern)
    (hclose : d.closeQuote ∉ pattern) (h : pattern <:+: a ++ (d.quote name).toList ++ b) :
    pattern <:+: a ∨ pattern <:+: name.toList ∨ pattern <:+: b := by
  have hchars : a ++ (d.quote name).toList ++ b = a ++ d.openQuote ::
      (name.toList.flatMap (doubled d.closeQuote) ++ d.closeQuote :: b) := by
    rw [toList_quote]
    simp
  rw [hchars] at h
  rcases Text.infix_or_infix hopen h with hfront | h
  · exact .inl hfront
  · rcases Text.infix_or_infix hclose h with hname | hback
    · exact .inr (.inl (infix_of_doubled hclose hname))
    · exact .inr (.inr hback)

end Written

variable (d : Dialect) (s : Schema) (tableAlias : String)

/-- A column of a selection. -/
def selected (c : Column) : String := d.columnText ⟨true, tableAlias⟩ (s.ref c, none)

/-- A column is written with its quoted name, behind an alias that is the same for all. -/
theorem exists_selected_eq :
    ∃ front : String, (front = "" ∨ front = tableAlias ++ ".") ∧
      ∀ c, d.selected s tableAlias c = front ++ d.quote c.name := by
  by_cases halias : tableAlias = ""
  · refine ⟨"", .inl rfl, fun c => ?_⟩
    simp [selected, columnText, columnRef, halias, Schema.ref]
  · refine ⟨tableAlias ++ ".", .inr rfl, fun c => ?_⟩
    simp [selected, columnText, columnRef, halias, Schema.ref]

theorem selected_eq_iff {c c' : Column} :
    d.selected s tableAlias c = d.selected s tableAlias c' ↔ c.name = c'.name := by
  obtain ⟨front, -, hselected⟩ := d.exists_selected_eq s tableAlias
  rw [hselected, hselected, String.append_right_inj, d.quote_injective.eq_iff]

theorem map_selected_filter (c : Column) (cs : List Column) :
    (cs.filter (·.name != c.name)).map (d.selected s tableAlias) =
      (cs.map (d.selected s tableAlias)).filter (· != d.selected s tableAlias c) := by
  rw [List.filter_map]
  congr 2
  funext c'
  rw [Function.comp_apply, Bool.eq_iff_iff, bne_iff_ne, bne_iff_ne, ne_eq, ne_eq,
    d.selected_eq_iff s tableAlias]

/-- The pieces of columns, less what is blank or the column to be left out, join to the other
columns exactly if that takes all pieces of the one column and none of another. -/
theorem intercalate_others_iff (c : Column) (cs : List Column) (label : String) :
    ", ".intercalate (((((cs.map (d.selected s tableAlias)).flatMap Text.pieces).filter
        (!Text.allBlank ·)).filter (· != d.selected s tableAlias c)) ++ [label]) =
      ", ".intercalate
        ((cs.filter (·.name != c.name)).map (d.selected s tableAlias) ++ [label]) ↔
      ∀ c' ∈ cs, ∀ piece ∈ Text.pieces (d.selected s tableAlias c'),
        (Text.allBlank piece = true ∨ piece = d.selected s tableAlias c) ↔ c'.name = c.name := by
  rw [List.filter_filter, d.map_selected_filter, Text.intercalate_kept_eq_iff, List.forall_mem_map]
  refine forall₄_congr fun c' _ piece _ => ?_
  rw [← d.selected_eq_iff s tableAlias, Bool.eq_iff_iff, Bool.and_eq_true, bne_iff_ne, bne_iff_ne,
    Bool.not_eq_true', ← Bool.not_eq_true, ne_eq, ne_eq, ← not_or, not_iff_not, or_comm]

/-- The quotes are no blanks and no characters that separate the columns of a list. -/
def PlainQuotes : Prop :=
  ∀ q ∈ [d.openQuote, d.closeQuote], Text.isBlank q = false ∧ q ∉ ", FROM".toList

instance : Decidable d.PlainQuotes := List.decidableBAll _ _

theorem plainQuotes_standard :
    ∀ d ∈ [sqlite, mysql, postgresql, oracle, bracket], d.PlainQuotes := by
  decide +kernel

variable {d s tableAlias}

theorem PlainQuotes.isBlank_openQuote (hquotes : d.PlainQuotes) :
    Text.isBlank d.openQuote = false := (hquotes _ List.mem_cons_self).1

/-- A quoted name is as plain as the name. -/
theorem PlainQuotes.quote (hquotes : d.PlainQuotes) {front name back : String}
    (hfront : Text.Plain front) (hname : Text.Plain name) (hback : Text.Plain back) :
    Text.Plain (front ++ d.quote name ++ back) := by
  obtain ⟨⟨-, hopen⟩, -, hclose⟩ :
      (Text.isBlank d.openQuote = false ∧ d.openQuote ∉ ", FROM".toList) ∧
        Text.isBlank d.closeQuote = false ∧ d.closeQuote ∉ ", FROM".toList := by
    simpa [PlainQuotes] using hquotes
  have hpattern : ∀ pattern : List Char, pattern ⊆ ", FROM".toList →
      pattern <:+: (front ++ d.quote name ++ back).toList →
        pattern <:+: front.toList ∨ pattern <:+: name.toList ∨ pattern <:+: back.toList := by
    intro pattern hsub hin
    rw [String.toList_append, String.toList_append] at hin
    exact d.infix_of_quote (fun h => hopen (hsub h)) (fun h => hclose (hsub h)) hin
  constructor
  · intro hin
    rcases hpattern _ (by decide) hin with hin | hin | hin
    · exact hfront.1 hin
    · exact hname.1 hin
    · exact hback.1 hin
  · intro hin
    rcases hpattern _ (by decide) hin with hin | hin | hin
    · exact hfront.2 hin
    · exact hname.2 hin
    · exact hback.2 hin

/-- A column with a plain name is one piece, and has no `FROM`. -/
theorem separated_of_plain (hquotes : d.PlainQuotes) (halias : Text.Plain (" " ++ tableAlias))
    {c : Column} (hname : Text.Plain c.name) :
    Text.pieces (d.selected s tableAlias c) = [d.selected s tableAlias c] ∧
      Text.allBlank (d.selected s tableAlias c) = false ∧
      ¬ " FROM ".toList <:+: (" " ++ d.selected s tableAlias c ++ " ").toList := by
  obtain ⟨front, hfront, hselected⟩ := d.exists_selected_eq s tableAlias
  have hplain : Text.Plain (" " ++ front) := by
    rcases hfront with rfl | rfl
    · decide
    · rw [← String.append_assoc]
      exact halias.append (by decide)
  have hblank : Text.allBlank (d.selected s tableAlias c) = false := by
    rw [hselected, Text.allBlank, String.toList_append, toList_quote]
    simp [hquotes.isBlank_openQuote]
  have hitem : Text.Plain (" " ++ d.selected s tableAlias c ++ " ") := by
    rw [hselected, ← String.append_assoc]
    exact hquotes.quote hplain hname (by decide)
  exact ⟨hitem.pieces, hblank, hitem.2⟩

end Dialect

/-- The items of a list without a column, and with another one in its place at the end. -/
def Dialect.replacing (d : Dialect) (scope : Scope) (src dst : ColumnRef × Option String)
    (items : List String) : List String :=
  items.filter (· != d.columnText scope dst) ++
    [d.columnText scope src ++ " AS " ++ d.columnText { scope with qualify := false } dst]

/-- A column of the entity is found by its text in the selection, and labelled with its name. -/
theorem Dialect.replacing_column (d : Dialect) (s : Schema) {tableAlias : String}
    {own : Option String} (hown : own.getD tableAlias = tableAlias)
    (src : ColumnRef × Option String) (c : Column) (items : List String) :
    d.replacing ⟨true, tableAlias⟩ src (s.ref c, own) items =
      items.filter (· != d.selected s tableAlias c) ++
        [d.columnText ⟨true, tableAlias⟩ src ++ " AS " ++ d.quote c.name] := by
  have hdst : d.columnText ⟨true, tableAlias⟩ (s.ref c, own) = d.selected s tableAlias c := by
    simp [Dialect.selected, Dialect.columnText, Dialect.columnRef, hown]
  have hlabel : d.columnText ⟨false, tableAlias⟩ (s.ref c, own) = d.quote c.name := by
    simp [Dialect.columnText, Dialect.columnRef, Schema.ref]
  rw [replacing, hdst, hlabel]

namespace Building

/-- A column is selected in place of another one by editing the first text. -/
theorem selectJoin_apply {source target : Node} {src dst : ColumnRef × Option String}
    (hsource : source.column? = some src) (htarget : target.column? = some dst) (b : Builder)
    {s edited : String} {rest : List Token} (hbody : b.body.tokens = .text s :: rest)
    (hedit : Fragment.editText? (b.dialect.replacing b.scope src dst) s = some edited) :
    selectJoin source target b =
      (.ok (), { b with body := ⟨.text edited :: rest, b.body.bindings⟩ }) := by
  have hcolumn : ∀ (qualified : Bool) {n : Node} {c : ColumnRef × Option String},
      n.column? = some c → ∀ k : String → Building Unit, (columnText qualified n >>= k) b =
        k (b.dialect.columnText ⟨qualified, b.tableAlias⟩ c) b := by
    intro qualified n c hc k
    rw [columnText_bind_apply]
    simp only [Dialect.orderColumn, hc]
    show k (b.dialect.render (.text _)) b = _
    rw [Dialect.render_text]
  have hlist : b.body.editSelectList? (b.dialect.replacing b.scope src dst) =
      some ⟨.text edited :: rest, b.body.bindings⟩ := by
    rw [Fragment.editSelectList?, hbody, Fragment.editTokens?, hedit]
    rfl
  unfold selectJoin
  rw [get_bind_apply, hcolumn _ hsource, hcolumn _ htarget, hcolumn _ htarget]
  unfold Dialect.replacing Builder.scope at hlist
  simp only [hlist]
  rfl

end Building

/-! ### Replacing a column -/

/-- Whatever text is put in front of tokens, the same follows it. -/
theorem Token.exists_consText (ts : List Token) :
    ∃ more rest, ∀ s ≠ "", consText s ts = .text (s ++ more) :: rest := by
  cases ts with
  | nil => exact ⟨"", [], fun s hs => by simp [consText, hs]⟩
  | cons t ts =>
    cases t with
    | text u => exact ⟨u, ts, fun s hs => by rw [consText, if_neg hs]⟩
    | param name => exact ⟨"", .param name :: ts, fun s hs => by simp [consText, hs]⟩
    | slot => exact ⟨"", .slot :: ts, fun s hs => by simp [consText, hs]⟩
    | sentinel => exact ⟨"", .sentinel :: ts, fun s hs => by simp [consText, hs]⟩

/-- A selection of some items. -/
def selectionOf (d : Dialect) (s : Schema) (tableAlias : String) (items : List String) : String :=
  "SELECT " ++ ", ".intercalate items ++ " FROM " ++ d.tableRef s.table (some tableAlias)

/-- Whatever a select statement is extended by, it starts with its selection. -/
theorem Builder.Containing.exists_first_text {d : Dialect} {s : Schema} {tableAlias : String}
    {ts : List Token} {b : Builder} (h : b.Containing d s tableAlias ts) :
    ∃ more rest, b.body.tokens = .text (" " ++
      selectionOf d s tableAlias (s.columns.map (d.selected s tableAlias)) ++ more) :: rest := by
  obtain ⟨front, back, hbody⟩ := h.around
  rw [hbody]
  obtain ⟨more, rest, hstart⟩ :=
    Token.exists_consText (Token.compact (front ++ ts ++ back))
  exact ⟨more, rest, hstart _ (by simp)⟩

namespace Building

section Replacing

variable {d : Dialect} {s : Schema} {tableAlias : String} {b : Builder} {items : List String}
  {more : String} {rest : List Token} {source target : Node}
  {src dst : ColumnRef × Option String}

/-- A select join edits the pieces of the items, and leaves everything else. -/
theorem selectJoin_selection (hdialect : b.dialect = d) (hscope : b.scope = ⟨true, tableAlias⟩)
    (hbody : b.body.tokens = .text (" " ++ selectionOf d s tableAlias items ++ more) :: rest)
    (hne : items ≠ []) (hfrom : ∀ item ∈ items, ¬ " FROM ".toList <:+: (" " ++ item ++ " ").toList)
    (hsource : source.column? = some src) (htarget : target.column? = some dst) :
    selectJoin source target b = (.ok (), { b with body := ⟨.text (" " ++
      selectionOf d s tableAlias (d.replacing ⟨true, tableAlias⟩ src dst
        ((items.flatMap Text.pieces).filter (!Text.allBlank ·))) ++ more) :: rest,
      b.body.bindings⟩ }) := by
  have htext : ∀ items : List String, " " ++ selectionOf d s tableAlias items ++ more =
      " SELECT " ++ ", ".intercalate items ++ " FROM " ++
        (d.tableRef s.table (some tableAlias) ++ more) := by
    intro items
    apply String.toList_injective
    simp [selectionOf]
  rw [htext] at hbody ⊢
  apply selectJoin_apply hsource htarget b hbody
  rw [hdialect, hscope]
  exact Fragment.editText?_list _ hne hfrom _

/-- What stands around a list tells nothing about it. -/
theorem selectionOf_inj {items others : List String} :
    (((.ok (), { b with body := ⟨.text (" " ++ selectionOf d s tableAlias items ++ more) :: rest,
        b.body.bindings⟩ }) : Except Fault Unit × Builder) =
      (.ok (), { b with body := ⟨.text (" " ++ selectionOf d s tableAlias others ++ more) :: rest,
        b.body.bindings⟩ })) ↔ ", ".intercalate items = ", ".intercalate others := by
  simp only [Prod.mk.injEq, Builder.mk.injEq, Fragment.mk.injEq, List.cons.injEq, Token.text.injEq,
    selectionOf, String.append_right_inj, String.append_left_inj, true_and, and_true]

/-- Where no column has a `FROM`, the target alone is replaced if its pieces alone are dropped. -/
theorem selectJoin_eq_iff {c : Column} (hc : c ∈ s.columns) {own : Option String}
    (hown : own.getD tableAlias = tableAlias) (hdialect : b.dialect = d)
    (hscope : b.scope = ⟨true, tableAlias⟩)
    (hbody : b.body.tokens = .text (" " ++
      selectionOf d s tableAlias (s.columns.map (d.selected s tableAlias)) ++ more) :: rest)
    (hsource : source.column? = some src) (htarget : target.column? = some (s.ref c, own))
    (hfrom : ∀ c' ∈ s.columns,
      ¬ " FROM ".toList <:+: (" " ++ d.selected s tableAlias c' ++ " ").toList) :
    selectJoin source target b = (.ok (), { b with body := ⟨.text (" " ++
        selectionOf d s tableAlias
          ((s.columns.filter (·.name != c.name)).map (d.selected s tableAlias) ++
            [d.columnText ⟨true, tableAlias⟩ src ++ " AS " ++ d.quote c.name]) ++ more) :: rest,
        b.body.bindings⟩ }) ↔
      ∀ c' ∈ s.columns, ∀ piece ∈ Text.pieces (d.selected s tableAlias c'),
        (Text.allBlank piece = true ∨ piece = d.selected s tableAlias c) ↔ c'.name = c.name := by
  have hrun := selectJoin_selection hdialect hscope hbody
    (List.ne_nil_of_mem (List.mem_map_of_mem hc)) (List.forall_mem_map.mpr hfrom) hsource htarget
  rw [d.replacing_column s hown] at hrun
  rw [hrun, selectionOf_inj]
  exact d.intercalate_others_iff s tableAlias c s.columns _

end Replacing

variable (d : Dialect) (s : Schema) (tableAlias : String)

/-- A select join, after whatever extensions, leaves the target out of the selection, keeps the
other columns in their order, puts the source behind them under the name of the target and changes
nothing else.  Where no column is written with a `FROM` between spaces, it does so exactly if each
piece of the target is blank or the target, and no piece of another column is.  It always does so
where no name, no alias and no quote can be taken for something that separates columns. -/
theorem selectJoin_replaces (ops : List Extension) (source target : Node) (c : Column)
    (hc : c ∈ s.columns) (src : ColumnRef × Option String) (own : Option String)
    (hsource : source.column? = some src) (htarget : target.column? = some (s.ref c, own))
    (hown : own.getD tableAlias = tableAlias) :
    let selected := d.selected s tableAlias
    let b := (Extension.performAll ops ((Builder.new d).select s tableAlias)).2
    let others := s.columns.filter (·.name != c.name)
    let label := d.columnText ⟨true, tableAlias⟩ src ++ " AS " ++ d.quote c.name
    ∃ more rest,
      b.body.tokens =
        .text (" " ++ selectionOf d s tableAlias (s.columns.map selected) ++ more) :: rest ∧
      let text := " " ++ selectionOf d s tableAlias (others.map selected ++ [label]) ++ more
      let replaced : Prop := selectJoin source target b =
        (.ok (), { b with body := ⟨.text text :: rest, b.body.bindings⟩ })
      ((∀ c' ∈ s.columns, ¬ " FROM ".toList <:+: (" " ++ selected c' ++ " ").toList) →
        (replaced ↔ ∀ c' ∈ s.columns, ∀ piece ∈ Text.pieces (selected c'),
          (Text.allBlank piece = true ∨ piece = selected c) ↔ c'.name = c.name)) ∧
      (d.PlainQuotes → (∀ q ∈ ", ".toList, q ∉ tableAlias.toList) →
        (∀ c' ∈ s.columns, Text.Plain c'.name) → replaced) := by
  intro selected b others label
  have hb : b.Containing d s tableAlias [] :=
    (Extension.containing_performAll ops List.not_mem_nil
      (Extension.containing_select d s tableAlias)).1
  obtain ⟨more, rest, hbody⟩ := hb.exists_first_text
  have hexact := selectJoin_eq_iff hc hown hb.dialect hb.scope hbody hsource htarget
  refine ⟨more, rest, hbody, hexact, ?_⟩
  intro hquotes halias hnames
  have hseparated : ∀ c' ∈ s.columns, _ := fun c' hc' =>
    Dialect.separated_of_plain (s := s) hquotes (Text.plain_of_not_mem halias) (hnames c' hc')
  refine (hexact fun c' hc' => (hseparated c' hc').2.2).mpr ?_
  intro c' hc' piece hpiece
  obtain ⟨hpieces, hblank, -⟩ := hseparated c' hc'
  rw [hpieces, List.mem_singleton] at hpiece
  rw [hpiece, hblank, ← d.selected_eq_iff s tableAlias]
  simp

/-- The name of the customer in place of the one that the order has. -/
theorem selectJoin_replaces_customer :
    let ops : List Extension := [.refine (.join Refinement.customers), Extension.noted]
    let source : Node := .member ⟨"name", "name", "customer"⟩ (some "c")
    let target : Node := .member ⟨"customer_name", "customer", "orders"⟩ none
    let b := (Extension.performAll ops ((Builder.new .sqlite).select .order "t")).2
    ∃ more rest,
      b.body.tokens = .text (" SELECT t.\x60id\x60, t.\x60status\x60, t.\x60customer_name\x60, " ++
        "t.\x60amount\x60, t.\x60note\x60, t.\x60created\x60 FROM \x60orders\x60 t" ++ more) ::
          rest ∧
      selectJoin source target b = (.ok (), { b with body := ⟨.text
        (" SELECT t.\x60id\x60, t.\x60status\x60, t.\x60amount\x60, t.\x60note\x60, " ++
          "t.\x60created\x60, c.\x60name\x60 AS \x60customer_name\x60 FROM \x60orders\x60 t" ++
            more) :: rest, b.body.bindings⟩ }) := by
  intro ops source target b
  obtain ⟨more, rest, hbody, -, hreplaced⟩ := selectJoin_replaces .sqlite .order "t" ops source
    target ⟨"customer_name", "customer", Schema.text, false, none⟩ (.tail _ (.tail _ (.head _)))
    (⟨"name", "name", "customer"⟩, some "c") none rfl rfl rfl
  have hrun := hreplaced (by decide +kernel) (by simp) (by decide +kernel)
  have hselection : " " ++ selectionOf .sqlite .order "t"
      (Schema.order.columns.map (Dialect.sqlite.selected .order "t")) =
        " SELECT t.\x60id\x60, t.\x60status\x60, t.\x60customer_name\x60, " ++
          "t.\x60amount\x60, t.\x60note\x60, t.\x60created\x60 FROM \x60orders\x60 t" := by
    decide +kernel
  have hothers : " " ++ selectionOf .sqlite .order "t"
      ((Schema.order.columns.filter (·.name != "customer_name")).map
        (Dialect.sqlite.selected .order "t") ++
          [Dialect.sqlite.columnText ⟨true, "t"⟩ (⟨"name", "name", "customer"⟩, some "c") ++
            " AS " ++ Dialect.sqlite.quote "customer_name"]) =
        " SELECT t.\x60id\x60, t.\x60status\x60, t.\x60amount\x60, t.\x60note\x60, " ++
          "t.\x60created\x60, c.\x60name\x60 AS \x60customer_name\x60 FROM \x60orders\x60 t" := by
    decide +kernel
  rw [hselection] at hbody
  rw [hothers] at hrun
  exact ⟨more, rest, hbody, hrun⟩

/-- A column with a comma in its name stays beside the one that was to replace it. -/
theorem replaced_column_stays :
    ¬ ∀ (d : Dialect) (s : Schema) (tableAlias : String) (j : Joining) (t : String)
        (source target : Node) (c : Column) (src : ColumnRef × Option String),
      (s.columns.map (·.name)).Nodup →
      (∀ q ∈ [d.openQuote, d.closeQuote, ',', ' '], q ∉ tableAlias.toList) →
      j.text d ⟨true, tableAlias⟩ = .ok t → c ∈ s.columns → source.column? = some src →
      target.column? = some (s.ref c, none) →
        let b := (Extension.performAll [.refine (.join j)] ((Builder.new d).select s tableAlias)).2
        let others := s.columns.filter (·.name != c.name)
        (selectJoin source target b).2.body.tokens = [.text (" " ++ selectionOf d s tableAlias
          (others.map (d.selected s tableAlias) ++
            [d.columnText ⟨true, tableAlias⟩ src ++ " AS " ++ d.quote c.name]) ++ t),
          .sentinel] := by
  intro hclaim
  let name : ColumnRef := ⟨"name", "name", "customer"⟩
  let uni : ColumnRef := ⟨"naïve, col", "uni", "we\x60ird \"tbl]"⟩
  let j : Joining := ⟨.customer, "c", .binary .eq (.member uni none) (.member name (some "c"))⟩
  have htokens := hclaim .sqlite .weird "t" j _ (.member name (some "c")) (.member uni none)
    ⟨"naïve, col", "uni", .option Schema.text, false, none⟩ (name, some "c")
    (by decide +kernel) (by simp [Dialect.sqlite]) rfl (.tail _ (.tail _ (.tail _ (.head _))))
    rfl rfl
  revert htokens
  decide +kernel

end Building

end BoundSql
