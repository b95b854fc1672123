import BoundSql.Dialect.Standard
import Mathlib.Logic.Function.Basic

/-!
# Reading quoted identifiers

A quoted identifier is read by taking its characters, two closing quotes for one, up to the first
closing quote that is not doubled.  Reading finds exactly what quoting has written, as long as no
closing quote comes right behind it (`Dialect.identifier?_eq_some_iff`).  So no name ends its own
quotes, whatever characters it is made of, and what stands in front of a name or behind it does not
depend on the name.

The one closing quote that ends a name is told from a doubled one by the character behind it.  That
is why the induction on the name needs to know what follows, and nothing about the name.
-/

namespace BoundSql.Dialect

/-! ### Reading -/

/-- The characters up to the first closing quote that is not doubled, and what follows it. -/
def unquoted? (close : Char) : List Char → Option (List Char × List Char)
  | [] => none
  | c :: cs =>
    if c = close then
      match cs with
      | [] => some ([], [])
      | d :: ds =>
        if d = close then (unquoted? close ds).map fun (body, rest) => (close :: body, rest)
        else some ([], d :: ds)
    else (unquoted? close cs).map fun (body, rest) => (c :: body, rest)

/-- The identifier that the characters quote at their start, and what follows it. -/
def identifier? (d : Dialect) : List Char → Option (String × List Char)
  | [] => none
  | c :: cs =>
    if c = d.openQuote then
      (unquoted? d.closeQuote cs).map fun (body, rest) => (String.ofList body, rest)
    else none

/-! ### Reading what was written -/

variable {close : Char} {cs body rest : List Char}

theorem unquoted?_closed (hrest : rest.head? ≠ some close) :
    unquoted? close (close :: rest) = some ([], rest) := by
  cases rest with
  | nil => simp [unquoted?]
  | cons c rest =>
    have hc : c ≠ close := by simpa using hrest
    simp [unquoted?, hc]

theorem unquoted?_cons_of_ne {c : Char} (hc : c ≠ close) (cs : List Char) :
    unquoted? close (c :: cs) =
      (unquoted? close cs).map fun (body, rest) => (c :: body, rest) := by
  rw [unquoted?.eq_def]
  exact if_neg hc

theorem unquoted?_doubled (c : Char) (cs : List Char) :
    unquoted? close (doubled close c ++ cs) =
      (unquoted? close cs).map fun (body, rest) => (c :: body, rest) := by
  unfold doubled
  by_cases hc : c = close
  · subst hc
    simp [unquoted?]
  · rw [if_neg hc]
    exact unquoted?_cons_of_ne hc cs

theorem unquoted?_written (hrest : rest.head? ≠ some close) (body : List Char) :
    unquoted? close (body.flatMap (doubled close) ++ close :: rest) = some (body, rest) := by
  induction body with
  | nil => exact unquoted?_closed hrest
  | cons c body ih =>
    rw [List.flatMap_cons, List.append_assoc, unquoted?_doubled, ih]
    rfl

/-- Whatever was read is written like that. -/
theorem written_of_unquoted? (h : unquoted? close cs = some (body, rest)) :
    cs = body.flatMap (doubled close) ++ close :: rest ∧ rest.head? ≠ some close := by
  fun_induction unquoted? close cs generalizing body with
  | case1 => cases h
  | case2 =>
    obtain ⟨rfl, rfl⟩ := Prod.mk.inj (Option.some.inj h)
    exact ⟨rfl, by simp⟩
  | case3 ds ih =>
    obtain ⟨⟨inner, after⟩, hinner, hparts⟩ := Option.map_eq_some_iff.mp h
    obtain ⟨rfl, rfl⟩ := Prod.mk.inj hparts
    obtain ⟨hds, hafter⟩ := ih hinner
    refine ⟨?_, hafter⟩
    rw [List.flatMap_cons, List.append_assoc, ← hds]
    simp [doubled]
  | case4 d ds hd =>
    obtain ⟨rfl, rfl⟩ := Prod.mk.inj (Option.some.inj h)
    exact ⟨rfl, by simpa using hd⟩
  | case5 c cs hc ih =>
    obtain ⟨⟨inner, after⟩, hinner, hparts⟩ := Option.map_eq_some_iff.mp h
    obtain ⟨rfl, rfl⟩ := Prod.mk.inj hparts
    obtain ⟨hcs, hafter⟩ := ih hinner
    refine ⟨?_, hafter⟩
    rw [List.flatMap_cons, List.append_assoc, ← hcs]
    simp [doubled, hc]

/-- Doubling leaves what a text starts with, as far as that has no closing quote. -/
theorem prefix_doubled {pattern : List Char} (h : close ∉ pattern) (cs : List Char) :
    pattern <+: cs.flatMap (doubled close) ↔ pattern <+: cs := by
  induction pattern generalizing cs with
  | nil => simp
  | cons p ps ih =>
    rw [List.mem_cons, not_or] at h
    cases cs with
    | nil => simp
    | cons c cs =>
      rw [List.flatMap_cons]
      by_cases hc : c = close
      · have hp : p ≠ close := Ne.symm h.1
        rw [doubled, if_pos hc, hc]
        simp [hp]
      · rw [doubled, if_neg hc, List.singleton_append, List.cons_prefix_cons,
          List.cons_prefix_cons, ih h.2]

variable (d : Dialect)

theorem toList_quote (s : String) :
    (d.quote s).toList =
      d.openQuote :: (s.toList.flatMap (doubled d.closeQuote) ++ [d.closeQuote]) := by
  rw [quote, String.toList_ofList]
  rfl

/-- Reading accepts what quoting writes in front of anything but a closing quote, and that only. -/
theorem identifier?_eq_some_iff {s : String} :
    d.identifier? cs = some (s, rest) ↔
      cs = (d.quote s).toList ++ rest ∧ rest.head? ≠ some d.closeQuote := by
  constructor
  · intro h
    cases cs with
    | nil => cases h
    | cons c cs =>
      rw [identifier?] at h
      by_cases hc : c = d.openQuote
      · rw [if_pos hc] at h
        obtain ⟨⟨body, after⟩, hbody, hparts⟩ := Option.map_eq_some_iff.mp h
        obtain ⟨rfl, rfl⟩ := Prod.mk.inj hparts
        obtain ⟨rfl, hafter⟩ := written_of_unquoted? hbody
        refine ⟨?_, hafter⟩
        rw [toList_quote, String.toList_ofList, hc]
        simp
      · rw [if_neg hc] at h
        cases h
  · rintro ⟨rfl, hrest⟩
    rw [toList_quote, List.cons_append, List.append_assoc, List.singleton_append, identifier?,
      if_pos rfl, unquoted?_written hrest]
    simp

/-- What follows a quoted name is found behind it. -/
theorem quote_append_inj {s t : String} {u v : List Char} (hu : u.head? ≠ some d.closeQuote)
    (hv : v.head? ≠ some d.closeQuote)
    (h : (d.quote s).toList ++ u = (d.quote t).toList ++ v) : s = t ∧ u = v := by
  have hs : d.identifier? ((d.quote s).toList ++ u) = some (s, u) :=
    d.identifier?_eq_some_iff.mpr ⟨rfl, hu⟩
  have ht : d.identifier? ((d.quote s).toList ++ u) = some (t, v) :=
    d.identifier?_eq_some_iff.mpr ⟨h, hv⟩
  exact Prod.mk.inj (Option.some.inj (hs.symm.trans ht))

theorem quote_injective : Function.Injective d.quote := by
  intro s t h
  have hsame : (d.quote s).toList ++ [] = (d.quote t).toList ++ [] := by rw [h]
  exact (d.quote_append_inj (by simp) (by simp) hsame).1

/-! ### Names in statements -/

/-- The name of a table is written in its quotes, and what follows does not depend on it. -/
theorem exists_tableRef_tail (tableAlias : Option String) :
    ∃ tail : List Char, ∀ table,
      (d.tableRef table tableAlias).toList = (d.quote table).toList ++ tail := by
  cases tableAlias with
  | none => exact ⟨_, fun _ => String.toList_append⟩
  | some a => exact ⟨_, fun _ => String.toList_append⟩

/-- The name of a column is written in its quotes, and what stands before does not depend on
it. -/
theorem exists_columnRef_front (scope : Scope) (own : Option String) :
    ∃ front : List Char, ∀ column : ColumnRef,
      (d.columnRef scope own column).toList = front ++ (d.quote column.name).toList :=
  ⟨_, fun _ => String.toList_append⟩

/-- Quoted identifiers are read back: reading accepts the quoted form of a name in front of anything
that does not start with the closing quote, finds the name and what follows, and accepts nothing
else.  Different names have different quoted forms, and the names of tables and columns are written
in no other form, among characters that do not depend on them. -/
theorem quoted_names_read_back :
    (∀ cs s rest, d.identifier? cs = some (s, rest) ↔
      cs = (d.quote s).toList ++ rest ∧ rest.head? ≠ some d.closeQuote) ∧
      Function.Injective d.quote ∧
      (∀ tableAlias, ∃ tail : List Char, ∀ table,
        (d.tableRef table tableAlias).toList = (d.quote table).toList ++ tail) ∧
      ∀ scope own, ∃ front : List Char, ∀ column : ColumnRef,
        (d.columnRef scope own column).toList = front ++ (d.quote column.name).toList := by
  refine ⟨?_, d.quote_injective, d.exists_tableRef_tail, d.exists_columnRef_front⟩
  intro cs s rest
  exact d.identifier?_eq_some_iff

example : bracket.identifier? "[a]]].[b]".toList = some ("a]", ".[b]".toList) := by decide +kernel

end BoundSql.Dialect
