import BoundSql.Dialect.Standard
import BoundSql.Memory.Basic
import BoundSql.Proofs.Occurrence
import BoundSql.Proofs.Quoting
import BoundSql.Proofs.Rendering
import BoundSql.Schema.Write

/-!
# Counting the tuples of an insert

A database that does not know how many rows an insert has can count the places between its tuples
in the text.  These are the only places that look like one, unless a name looks like one itself
(`Schema.defaultAnswer_insert`).
-/

namespace BoundSql

open Text

/-! ### Places between tuples -/

/-- What stands between two tuples. -/
def tupleBreak : List Char := [')', ',', ' ', '(']

/-- How often a text has what stands between two tuples. -/
def breaks (cs : List Char) : Nat := hits tupleBreak cs

theorem occurrences_tupleBreak (s : String) : occurrences s "), (" = breaks s.toList :=
  occurrences_eq_hits rfl (by decide)

theorem breaks_of_contains {s : String} (h : contains s "), (" = false) : breaks s.toList = 0 :=
  hits_eq_zero h

section Breaks

variable {x : Char} {a b : List Char}

theorem breaks_cons (h : x ≠ ')') : breaks (x :: b) = breaks b := hits_cons_of_ne h

theorem breaks_append_of_not_mem (h : ')' ∉ a) : breaks (a ++ b) = breaks b :=
  hits_append_of_not_mem h

theorem breaks_append_paren : breaks (a ++ ')' :: b) = breaks a + breaks (')' :: b) :=
  hits_append_cons (by decide)

theorem breaks_paren_cons (h : x ≠ ',') : breaks (')' :: x :: b) = breaks (x :: b) := by
  have hno : ¬ tupleBreak <+: ')' :: x :: b := by
    simp [tupleBreak, Ne.symm h]
  unfold breaks
  rw [hits, if_neg hno, Nat.zero_add]

theorem breaks_append_cons (h : x ∉ tupleBreak) : breaks (a ++ x :: b) = breaks a + breaks b := by
  simp only [tupleBreak, List.mem_cons, not_or] at h
  have hcut : breaks (a ++ x :: b) = breaks a + breaks (x :: b) :=
    hits_append_cons (by simp [h])
  rw [hcut, breaks_cons h.1]

theorem breaks_append_of_last (h : '(' ∉ b) : breaks (a ++ b) = breaks a := by
  have hlast : tupleBreak = [')', ',', ' '] ++ ['('] := rfl
  unfold breaks
  rw [hlast, hits_append_of_last h]

end Breaks

/-! ### Names and markers -/

/-- What the dialect writes around names and before markers is nothing that stands between
tuples. -/
def Dialect.SparesTuples (d : Dialect) : Prop :=
  d.openQuote ∉ tupleBreak ∧ d.closeQuote ∉ tupleBreak ∧ d.sign ∉ tupleBreak

instance (d : Dialect) : Decidable d.SparesTuples :=
  inferInstanceAs (Decidable (_ ∧ _ ∧ _))

theorem Dialect.sparesTuples_of_mem :
    ∀ d ∈ Dialect.bracket :: Dialect.shipped, d.SparesTuples := by
  decide

/-- No name of the schema has what stands between tuples.  The names of fields, which are
identifiers of a program, cannot. -/
def Schema.SparesTuples (s : Schema) : Prop :=
  contains s.table "), (" = false ∧
    ∀ c ∈ s.columns, contains c.name "), (" = false ∧ contains c.field "), (" = false

instance (s : Schema) : Decidable s.SparesTuples :=
  inferInstanceAs (Decidable (_ ∧ _))

theorem breaks_doubled {close : Char} (h : close ∉ tupleBreak) (cs : List Char) :
    breaks (cs.flatMap (Dialect.doubled close)) = breaks cs := by
  induction cs with
  | nil => rfl
  | cons c cs ih =>
    by_cases hc : c = close
    · subst hc
      have hparen : c ≠ ')' := fun heq => h (by simp [tupleBreak, heq])
      have hdoubled : (c :: cs).flatMap (Dialect.doubled c) =
          c :: c :: cs.flatMap (Dialect.doubled c) := by
        simp [Dialect.doubled]
      rw [hdoubled, breaks_cons hparen, breaks_cons hparen, breaks_cons hparen, ih]
    · have hdoubled : (c :: cs).flatMap (Dialect.doubled close) =
          c :: cs.flatMap (Dialect.doubled close) := by
        simp [Dialect.doubled, hc]
      have hstart := Dialect.prefix_doubled h (c :: cs)
      rw [hdoubled] at hstart ⊢
      unfold breaks at ih ⊢
      rw [hits, hits, ih]
      simp only [hstart]

section Dialect

variable {d : Dialect} (hd : d.SparesTuples)
include hd

theorem breaks_quote_append {name : String} (h : contains name "), (" = false) (cs : List Char) :
    breaks ((d.quote name).toList ++ cs) = breaks cs := by
  obtain ⟨hopen, hclose, -⟩ := hd
  have hparen : d.openQuote ≠ ')' := fun heq => hopen (by simp [tupleBreak, heq])
  have hchars : (d.quote name).toList ++ cs = d.openQuote ::
      (name.toList.flatMap (Dialect.doubled d.closeQuote) ++ d.closeQuote :: cs) := by
    simp [Dialect.quote]
  rw [hchars, breaks_cons hparen, breaks_append_cons hclose, breaks_doubled hclose,
    breaks_of_contains h, Nat.zero_add]

/-- A list of columns, in front of something that is not part of a name. -/
theorem breaks_columns_append {columns : List Column}
    (h : ∀ c ∈ columns, contains c.name "), (" = false) (cs : List Char) :
    breaks ((", ".intercalate (columns.map (d.quote ·.name))).toList ++ cs) = breaks cs := by
  induction columns with
  | nil => rfl
  | cons c columns ih =>
    have hc := h c List.mem_cons_self
    have hrest := ih fun x hx => h x (List.mem_cons_of_mem _ hx)
    cases columns with
    | nil =>
      rw [List.map_cons, List.map_nil, String.intercalate_singleton]
      exact breaks_quote_append hd hc cs
    | cons x columns =>
      rw [List.map_cons] at hrest
      rw [List.map_cons, List.map_cons, String.intercalate_cons_cons, String.toList_append,
        String.toList_append, List.append_assoc, List.append_assoc, breaks_quote_append hd hc,
        breaks_append_of_not_mem (by decide)]
      exact hrest

end Dialect

/-- What a marker has behind its sign. -/
def Dialect.afterSign (d : Dialect) (name : String) (v : Value) : List Char :=
  name.toList ++ if d.typedMarkers then '#' :: v.type.name.toList else []

theorem toList_marker (d : Dialect) (name : String) (v : Value) :
    (d.marker name v).toList = d.sign :: d.afterSign name v := by
  unfold Dialect.marker Dialect.afterSign
  cases d.typedMarkers <;> simp

theorem breaks_afterSign (d : Dialect) (name : String) (v : Value) :
    breaks (d.afterSign name v) = breaks name.toList := by
  have htype : ∀ t : SqlType, breaks t.name.toList = 0 := by
    intro t
    cases t with
    | integer t => cases t <;> rfl
    | binary t => cases t <;> rfl
    | decimal precision scale => exact (by decide : breaks "DECIMAL".toList = 0)
    | list item => exact (by decide : breaks "LIST".toList = 0)
    | _ => rfl
  unfold Dialect.afterSign
  cases d.typedMarkers with
  | false => exact congrArg breaks (List.append_nil _)
  | true =>
    show breaks (name.toList ++ '#' :: v.type.name.toList) = _
    rw [breaks_append_cons (by decide), htype, Nat.add_zero]

theorem breaks_claim (names : Names) {base : String} (h : contains base "), (" = false) :
    breaks (names.claim base).1.toList = 0 := by
  have hbase := breaks_of_contains h
  unfold Names.claim
  split
  · have hdigits : ∀ n, '(' ∉ (Numeric.natText n).toList := by
      intro n hmem
      have hdigit : ('(' : Char).isDigit = true := by
        apply Nat.isDigit_of_mem_toDigits (by decide : 0 < 10) (by decide)
        simpa [Numeric.natText, Numeric.digits] using hmem
      cases hdigit
    show breaks (Names.numbered base _).toList = 0
    rw [Names.numbered, String.toList_append, breaks_append_of_last (hdigits _), hbase]
  · exact hbase

/-! ### Tuples -/

/-- The characters of some tokens of a statement. -/
def Dialect.chars (d : Dialect) (bindings : List Binding) (ts : List Token) : List Char :=
  (Fragment.render d.marker ⟨ts, bindings⟩).toList

section Tuples

variable (d : Dialect) (bindings : List Binding)

theorem chars_append (ts us : List Token) :
    d.chars bindings (ts ++ us) = d.chars bindings ts ++ d.chars bindings us := by
  unfold Dialect.chars
  rw [Fragment.render_append, String.toList_append]

theorem chars_text (s : String) (ts : List Token) :
    d.chars bindings (.text s :: ts) = s.toList ++ d.chars bindings ts := by
  unfold Dialect.chars
  rw [Fragment.render_cons, String.toList_append]
  rfl

theorem chars_param (name : String) (ts : List Token) :
    d.chars bindings (.param name :: ts) =
      (d.marker name (Fragment.valueOf bindings name)).toList ++ d.chars bindings ts := by
  unfold Dialect.chars
  rw [Fragment.render_cons, String.toList_append]
  rfl

variable {d} (hd : d.SparesTuples)
include hd

/-- The cells of a tuple have nothing that stands between tuples. -/
theorem breaks_tupleOf (names : Names) (cells : List (String × Value))
    (hcells : ∀ cell ∈ cells, contains cell.1 "), (" = false) (rest : List Char) :
    breaks (d.chars bindings (Schema.tupleOf names cells).1.1 ++ ')' :: rest) =
      breaks (')' :: rest) := by
  obtain ⟨-, -, hsign⟩ := hd
  have hparen : d.sign ≠ ')' := fun heq => hsign (by simp [tupleBreak, heq])
  induction cells generalizing names with
  | nil => rfl
  | cons cell cells ih =>
    obtain ⟨field, v⟩ := cell
    let name := (names.claim field).1
    let mark := d.afterSign name (Fragment.valueOf bindings name)
    have hmark : breaks mark = 0 := by
      rw [breaks_afterSign]
      exact breaks_claim names (hcells _ List.mem_cons_self)
    cases cells with
    | nil =>
      show breaks (d.chars bindings [.param name] ++ ')' :: rest) = _
      rw [chars_param, toList_marker, List.cons_append, List.cons_append, breaks_cons hparen]
      show breaks ((mark ++ []) ++ ')' :: rest) = _
      rw [List.append_nil, breaks_append_paren, hmark, Nat.zero_add]
    | cons next cells =>
      have htail := ih (names.claim field).2 fun cell hcell =>
        hcells cell (List.mem_cons_of_mem _ hcell)
      obtain ⟨other, tokens, hnext⟩ : ∃ other tokens,
          (Schema.tupleOf (names.claim field).2 (next :: cells)).1.1 = .param other :: tokens :=
        ⟨_, _, rfl⟩
      show breaks (d.chars bindings (.param name :: .text ", " ::
        (Schema.tupleOf (names.claim field).2 (next :: cells)).1.1) ++ ')' :: rest) = _
      rw [hnext, chars_param, toList_marker] at htail
      rw [hnext, chars_param, chars_text, chars_param, toList_marker, toList_marker]
      simp only [List.cons_append, List.append_assoc] at htail ⊢
      rw [breaks_cons hparen, ← List.append_assoc, breaks_append_cons hsign]
      rw [breaks_cons hparen] at htail
      show breaks (mark ++ [',', ' ']) + _ = _
      rw [breaks_append_of_last (by decide), hmark, Nat.zero_add, htail]

omit hd in
theorem tokens_tuplesOf_singleton (names : Names) (cells : List (String × Value)) :
    (Schema.tuplesOf names [cells]).1.1 =
      .text "(" :: ((Schema.tupleOf names cells).1.1 ++ [.text ")"]) := by
  simp [Schema.tuplesOf]

omit hd in
theorem tokens_tuplesOf_cons (names : Names) (cells next : List (String × Value))
    (rows : List (List (String × Value))) :
    ∃ rest, (Schema.tuplesOf (Schema.tupleOf names cells).2 (next :: rows)).1.1 =
        .text "(" :: rest ∧
      (Schema.tuplesOf names (cells :: next :: rows)).1.1 =
        .text "(" :: ((Schema.tupleOf names cells).1.1 ++ .text ")" :: .text ", " ::
          .text "(" :: rest) := by
  simp [Schema.tuplesOf]

omit hd bindings in
theorem breaks_tupleBreak_append (cs : List Char) :
    breaks (')' :: ',' :: ' ' :: '(' :: cs) = breaks ('(' :: cs) + 1 := by
  have hstart : tupleBreak <+: ')' :: ',' :: ' ' :: '(' :: cs := List.prefix_append tupleBreak cs
  have hcons : breaks (')' :: ',' :: ' ' :: '(' :: cs) =
      1 + breaks (',' :: ' ' :: '(' :: cs) := by
    unfold breaks
    rw [hits, if_pos hstart]
  rw [hcons, breaks_cons (by decide), breaks_cons (by decide), Nat.add_comm]

/-- Between tuples there is one place fewer than there are tuples. -/
theorem breaks_tuplesOf (names : Names) (rows : List (List (String × Value)))
    (hrows : ∀ cells ∈ rows, ∀ cell ∈ cells, contains cell.1 "), (" = false) (hne : rows ≠ []) :
    breaks (d.chars bindings (Schema.tuplesOf names rows).1.1) + 1 = rows.length := by
  have hopen : "(".toList = ['('] := rfl
  have hclose : ")".toList = [')'] := rfl
  have hcomma : ", ".toList = [',', ' '] := rfl
  induction rows generalizing names with
  | nil => exact absurd rfl hne
  | cons cells rows ih =>
    have hcells := hrows cells List.mem_cons_self
    cases rows with
    | nil =>
      have hnil : d.chars bindings [] = [] := rfl
      rw [tokens_tuplesOf_singleton, chars_text, chars_append, chars_text, hnil, hopen, hclose,
        List.append_nil, List.singleton_append, breaks_cons (by decide),
        breaks_tupleOf bindings hd names cells hcells]
      rfl
    | cons next rows =>
      have htail := ih (Schema.tupleOf names cells).2
        (fun cells hmem => hrows cells (List.mem_cons_of_mem _ hmem)) (by simp)
      obtain ⟨rest, hnext, htokens⟩ := tokens_tuplesOf_cons names cells next rows
      rw [hnext, chars_text, hopen, List.singleton_append] at htail
      rw [htokens, chars_text, chars_append, chars_text, chars_text, chars_text, hopen, hclose,
        hcomma]
      simp only [List.cons_append, List.nil_append]
      rw [breaks_cons (by decide), breaks_tupleOf bindings hd names cells hcells,
        breaks_tupleBreak_append, htail]
      rfl

end Tuples

/-! ### The statement -/

namespace Schema

variable (s : Schema) (d : Dialect) (entities : List (Entity s)) (generated : Bool)

/-- What an insert has before its tuples. -/
def insertHead : String :=
  "INSERT INTO " ++ d.quote s.table ++ " (" ++
    ", ".intercalate ((s.columns.filter (!s.isGenerated generated ·)).map (d.quote ·.name)) ++
    ") VALUES "

theorem toList_insert :
    (d.render (s.insert d entities generated)).toList =
      (s.insertHead d generated).toList ++ d.chars (s.insert d entities generated).bindings
        (tuplesOf .none (entities.map (s.insertedCells generated))).1.1 := by
  rw [← chars_text]
  unfold Dialect.chars
  rw [← Fragment.render_compact]
  rfl

theorem isWrite_insert : isWrite (d.render (s.insert d entities generated)) = true := by
  obtain ⟨rest, hrest⟩ : ∃ rest, (d.render (s.insert d entities generated)).toList =
      "INSERT".toList ++ rest := by
    rw [toList_insert]
    unfold insertHead
    simp only [String.toList_append, List.append_assoc]
    exact ⟨" INTO ".toList ++ _, rfl⟩
  have htrim : Text.trimStart (d.render (s.insert d entities generated)) =
      d.render (s.insert d entities generated) := by
    have hfirst : "INSERT".toList ++ rest = 'I' :: ("NSERT".toList ++ rest) := rfl
    unfold Text.trimStart
    rw [hrest, hfirst, List.dropWhile_cons_of_neg (by decide), ← hfirst, ← hrest,
      String.ofList_toList]
  have hstarts : Text.startsWith (d.render (s.insert d entities generated)) "INSERT" = true := by
    rw [startsWith_iff, hrest]
    exact List.prefix_append _ _
  unfold isWrite writeWords
  rw [htrim, List.any_cons, hstarts, Bool.true_or]

variable {s d}

theorem insertedCells_spared (hs : s.SparesTuples) :
    ∀ cells ∈ entities.map (s.insertedCells generated), ∀ cell ∈ cells,
      contains cell.1 "), (" = false := by
  intro cells hcells cell hcell
  obtain ⟨e, -, rfl⟩ := List.mem_map.mp hcells
  obtain ⟨⟨c, v⟩, hmem, rfl⟩ := List.mem_map.mp hcell
  have hc : c ∈ s.columns := (List.of_mem_zip (List.mem_of_mem_filter hmem)).1
  exact (hs.2 c hc).2

theorem breaks_insertHead_append (hd : d.SparesTuples) (hs : s.SparesTuples) (cs : List Char) :
    breaks ((s.insertHead d generated).toList ++ cs) = breaks cs := by
  have hcolumns : ∀ c ∈ s.columns.filter (!s.isGenerated generated ·),
      contains c.name "), (" = false :=
    fun c hc => (hs.2 c (List.mem_of_mem_filter hc)).1
  unfold insertHead
  simp only [String.toList_append, List.append_assoc]
  rw [breaks_append_of_not_mem (by decide), breaks_quote_append hd hs.1,
    breaks_append_of_not_mem (by decide), breaks_columns_append hd hcolumns]
  show breaks (')' :: ' ' :: ("VALUES ".toList ++ cs)) = _
  rw [breaks_paren_cons (by decide), breaks_cons (by decide), breaks_append_of_not_mem (by decide)]

/-- A database that counts tuples counts the entities. -/
theorem defaultAnswer_insert (hd : d.SparesTuples) (hs : s.SparesTuples) (hne : entities ≠ []) :
    Memory.defaultAnswer (d.render (s.insert d entities generated)) = .changed entities.length := by
  have hrows : entities.map (s.insertedCells generated) ≠ [] := by simpa using hne
  unfold Memory.defaultAnswer
  rw [if_pos (s.isWrite_insert d entities generated), occurrences_tupleBreak, toList_insert,
    breaks_insertHead_append generated hd hs,
    breaks_tuplesOf _ hd .none _ (insertedCells_spared entities generated hs) hrows,
    List.length_map]

end Schema

end BoundSql
