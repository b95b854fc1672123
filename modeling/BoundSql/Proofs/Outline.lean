import BoundSql.Proofs.Claiming

/-!
# Outlines of statements

Dialects differ in how they quote identifiers.  An outline is what a clause looks like before that:
pieces of text and markers, and identifiers that no one has quoted yet.  What an expression is
compiled to has an outline that depends on the expression, its clause, its scope and the names
taken, and on nothing else; a dialect only puts its quotes into it
(`Dialect.compile_from_outline`).

The compiler writes quoted identifiers in the middle of texts, where tokens merge.  So outlines are
compared after their pieces were quoted and compacted, which is what `Outline.quoted_append` and
`Fragment.text_append` are about.
-/

namespace BoundSql

/-! ### Texts put together -/

theorem Fragment.text_append (s u : String) : text (s ++ u) = text s ++ text u := by
  have htokens : Token.compact [.text (s ++ u)] =
      Token.append (Token.compact [.text s]) (Token.compact [.text u]) := by
    rw [Token.append_compact, Token.compact_append_compact]
    simp only [List.cons_append, List.nil_append, Token.compact, Token.consText_consText]
  show Fragment.mk (Token.compact [.text (s ++ u)]) [] = _
  rw [htokens]
  rfl

/-! ### Outlines -/

/-- A piece of a clause whose identifiers are not quoted yet. -/
inductive Piece where
  | token (t : Token)
  | identifier (s : String)

/-- The piece with its identifier quoted. -/
def Piece.quoted (quote : String → String) : Piece → Token
  | token t => t
  | identifier s => .text (quote s)

/-- A clause before its identifiers are quoted. -/
structure Outline where
  pieces : List Piece
  bindings : List Binding

namespace Outline

/-- The clause with its identifiers quoted. -/
def quoted (quote : String → String) (o : Outline) : Fragment :=
  ⟨Token.compact (o.pieces.map (Piece.quoted quote)), o.bindings⟩

def text (s : String) : Outline := ⟨[.token (.text s)], []⟩

/-- The outline of tokens that hold no identifiers. -/
def ofFragment (f : Fragment) : Outline := ⟨f.tokens.map .token, f.bindings⟩

/-- One outline after the other. -/
def extend (o p : Outline) : Outline := ⟨o.pieces ++ p.pieces, o.bindings ++ p.bindings⟩

instance : Append Outline := ⟨extend⟩

variable (quote : String → String)

theorem quoted_text (s : String) : (text s).quoted quote = .text s := rfl

theorem quoted_append (o p : Outline) :
    (o ++ p).quoted quote = o.quoted quote ++ p.quoted quote := by
  have htokens : Token.compact ((o.pieces ++ p.pieces).map (Piece.quoted quote)) =
      Token.append (Token.compact (o.pieces.map (Piece.quoted quote)))
        (Token.compact (p.pieces.map (Piece.quoted quote))) := by
    rw [Token.append_compact, Token.compact_append_compact, List.map_append]
  show Fragment.mk (Token.compact ((o.pieces ++ p.pieces).map (Piece.quoted quote))) _ = _
  rw [htokens]
  rfl

theorem quoted_ofFragment {f : Fragment} (hf : f.Merged) :
    (ofFragment f).quoted quote = f := by
  have hpieces : (f.tokens.map Piece.token).map (Piece.quoted quote) = f.tokens := by
    rw [List.map_map]
    exact List.map_id _
  show Fragment.mk (Token.compact ((f.tokens.map Piece.token).map (Piece.quoted quote)))
    f.bindings = f
  rw [hpieces, hf]

end Outline

/-! ### Computations in every dialect -/

namespace Claiming

/-- A computation that writes, in every dialect, the same outline with the quotes of the dialect,
or fails with the same fault in all of them. -/
def Uniform (c : Dialect → Claiming Fragment) : Prop :=
  ∀ names, ∃ (outcome : Except Fault Outline) (after : Names), ∀ d : Dialect,
    c d names = (outcome.map (Outline.quoted d.quote), after)

theorem uniform_pure {f : Dialect → Fragment} (o : Outline) (hf : ∀ d, f d = o.quoted d.quote) :
    Uniform fun d => pure (f d) := by
  intro names
  refine ⟨.ok o, names, ?_⟩
  intro d
  show (Except.ok (f d), names) = _
  rw [hf d]
  rfl

theorem uniform_obstructed (kind : NodeKind) (obstacle : Obstacle) :
    Uniform fun _ => obstructed kind obstacle := by
  intro names
  exact ⟨.error (.compile kind obstacle), names, fun _ => rfl⟩

/-- What knows of no dialect and writes compact tokens. -/
theorem uniform_of_merged {c : Claiming Fragment} (hc : Yields Fragment.Merged c) :
    Uniform fun _ => c := by
  intro names
  have hmerged := hc names
  rcases hrun : c names with ⟨r, after⟩
  rw [hrun] at hmerged
  refine ⟨r.map Outline.ofFragment, after, ?_⟩
  intro d
  cases r with
  | error e => exact hrun
  | ok f =>
    have hsame := Outline.quoted_ofFragment d.quote (hmerged f rfl)
    show c names = (.ok ((Outline.ofFragment f).quoted d.quote), after)
    rw [hsame, hrun]

theorem Uniform.bind {c : Dialect → Claiming Fragment} {k : Dialect → Fragment → Claiming Fragment}
    (hc : Uniform c) (hk : ∀ o : Outline, Uniform fun d => k d (o.quoted d.quote)) :
    Uniform fun d => c d >>= k d := by
  intro names
  obtain ⟨outcome, middle, hfirst⟩ := hc names
  cases outcome with
  | error e =>
    refine ⟨.error e, middle, ?_⟩
    intro d
    show (c d >>= k d) names = _
    rw [bind_apply, hfirst d]
    rfl
  | ok o =>
    obtain ⟨result, after, hsecond⟩ := hk o middle
    refine ⟨result, after, ?_⟩
    intro d
    show (c d >>= k d) names = _
    rw [bind_apply, hfirst d]
    exact hsecond d

/-- A value that every dialect computes alike, and what is done with it. -/
theorem uniform_ofExcept_bind {α : Type} (r : Except Fault α) {k : Dialect → α → Claiming Fragment}
    (hk : ∀ a, Uniform fun d => k d a) : Uniform fun d => ofExcept r >>= k d := by
  intro names
  cases r with
  | error e => exact ⟨.error e, names, fun _ => rfl⟩
  | ok a =>
    obtain ⟨outcome, after, hsecond⟩ := hk a names
    exact ⟨outcome, after, hsecond⟩

theorem uniform_splice (name : String) (w : WrappedValue) : Uniform fun _ => w.splice name :=
  uniform_of_merged (w.merged_splice name)

theorem uniform_boundAs (name : String) (v : Value) : Uniform fun _ => boundAs name v :=
  uniform_of_merged (merged_boundAs name v)

end Claiming

/-! ### Expressions -/

namespace Dialect

open Claiming

variable (scope : Scope)

/-- What a column is qualified with. -/
def qualifier (own : Option String) : String :=
  let name := own.getD scope.tableAlias
  if scope.qualify && name != "" then name ++ "." else ""

/-- A column before it is quoted. -/
def columnOutline (c : ColumnRef × Option String) : Outline :=
  ⟨[.token (.text (qualifier scope c.2)), .identifier c.1.name], []⟩

theorem quoted_columnOutline (d : Dialect) (c : ColumnRef × Option String) :
    (columnOutline scope c).quoted d.quote = .text (d.columnText scope c) := by
  have hcolumn : d.columnText scope c = qualifier scope c.2 ++ d.quote c.1.name := rfl
  have hparts : (columnOutline scope c).quoted d.quote =
      (Outline.text (qualifier scope c.2) ++ Outline.text (d.quote c.1.name)).quoted d.quote := rfl
  rw [hparts, Outline.quoted_append, Outline.quoted_text, Outline.quoted_text, hcolumn,
    Fragment.text_append]

/-- A column and what is written after it. -/
theorem quoted_columnOutline_append (d : Dialect) (c : ColumnRef × Option String) (s : String) :
    (columnOutline scope c ++ Outline.text s).quoted d.quote =
      .text (d.columnText scope c ++ s) := by
  rw [Outline.quoted_append, quoted_columnOutline, Outline.quoted_text, Fragment.text_append]

theorem uniform_comparison (op : BinaryOp) (lhs rhs : Node) :
    Uniform fun d => d.comparison scope op lhs rhs := by
  unfold comparison
  cases hcolumn : lhs.column? with
  | none => exact uniform_obstructed _ _
  | some c =>
    apply uniform_ofExcept_bind
    intro v
    by_cases hnull : v.isNull = true
    · -- a null is asked for by text alone and binds nothing
      simp only [hnull, if_true]
      split
      · exact uniform_pure _ fun d => (quoted_columnOutline_append scope d c _).symm
      · exact uniform_pure _ fun d => (quoted_columnOutline_append scope d c _).symm
      · exact uniform_obstructed _ _
    · simp only [hnull, Bool.false_eq_true, if_false]
      apply Uniform.bind (uniform_boundAs c.1.field v)
      intro o
      refine uniform_pure (columnOutline scope c ++ Outline.text (" " ++ op.sql ++ " ") ++ o) ?_
      intro d
      rw [Outline.quoted_append, quoted_columnOutline_append]
      simp only [String.append_assoc]

theorem uniform_likeness (negated : Bool) (method : Method) (c : ColumnRef × Option String)
    (arg : Node) : Uniform fun d => d.likeness scope negated method c arg := by
  unfold likeness
  apply uniform_ofExcept_bind
  intro v
  split
  · next s =>
    -- a pattern is the same in all dialects, its markers included
    have hpattern : Uniform fun d => (d.pattern method s).splice c.1.field := by
      cases method <;> exact uniform_splice _ _
    apply hpattern.bind
    intro o
    refine uniform_pure
      (columnOutline scope c ++ Outline.text (if negated then " NOT LIKE " else " LIKE ") ++ o) ?_
    intro d
    rw [Outline.quoted_append, quoted_columnOutline_append]
  · exact uniform_obstructed _ _

theorem uniform_membership (negated : Bool) (receiver arg : Node) :
    Uniform fun d => d.membership scope negated receiver arg := by
  unfold membership
  cases hcolumn : arg.column? with
  | none => exact uniform_obstructed _ _
  | some c =>
    apply uniform_ofExcept_bind
    intro v
    split
    · exact uniform_pure (Outline.text _) fun d => rfl
    · next v vs _ =>
      have hlist : Uniform fun d => (d.forList (v :: vs)).splice c.1.field := uniform_splice _ _
      apply hlist.bind
      intro o
      refine uniform_pure
        (columnOutline scope c ++ Outline.text (if negated then " NOT IN " else " IN ") ++ o) ?_
      intro d
      rw [Outline.quoted_append, quoted_columnOutline_append]
    · exact uniform_obstructed _ _

theorem uniform_callCondition (negated : Bool) (method : Method) (receiver : Node)
    (args : List Node) : Uniform fun d => d.callCondition scope negated method receiver args := by
  unfold callCondition
  rcases args with - | ⟨arg, - | ⟨second, more⟩⟩
  · exact uniform_obstructed _ _
  · cases hcolumn : receiver.column? with
    | some c => exact uniform_likeness scope negated method c arg
    | none =>
      by_cases hmethod : method = .contains
      · simp only [hmethod, if_true]
        exact uniform_membership scope negated receiver arg
      · simp only [hmethod, if_false]
        exact uniform_obstructed _ _
  · exact uniform_obstructed _ _

/-- A negation around an outline. -/
theorem exists_negatedIf (negated : Bool) (o : Outline) :
    ∃ p : Outline, ∀ quote, negatedIf negated (o.quoted quote) = p.quoted quote := by
  cases negated with
  | false => exact ⟨o, fun _ => rfl⟩
  | true =>
    refine ⟨Outline.text "NOT (" ++ o ++ Outline.text ")", ?_⟩
    intro quote
    rw [Outline.quoted_append, Outline.quoted_append]
    rfl

/-- Two outlines joined by an operator. -/
theorem quoted_joined (op : BinaryOp) (l r : Outline) (quote : String → String) :
    (Outline.text "(" ++ l ++ Outline.text (" " ++ op.sql ++ " ") ++ r ++
      Outline.text ")").quoted quote = joined op (l.quoted quote) (r.quoted quote) := by
  rw [Outline.quoted_append, Outline.quoted_append, Outline.quoted_append, Outline.quoted_append]
  rfl

theorem uniform_condition (negated : Bool) (n : Node) :
    Uniform fun d => d.condition scope negated n := by
  induction negated, n using condition.induct with
  | case1 negated op lhs rhs hop ihl ihr =>
    simp only [condition, hop, if_true]
    apply ihl.bind
    intro l
    apply ihr.bind
    intro r
    obtain ⟨o, ho⟩ := exists_negatedIf negated
      (Outline.text "(" ++ l ++ Outline.text (" " ++ op.sql ++ " ") ++ r ++ Outline.text ")")
    refine uniform_pure o ?_
    intro d
    rw [← ho, quoted_joined]
  | case2 negated op lhs rhs hop hcmp =>
    simp only [condition, hop, hcmp]
    apply (uniform_comparison scope op lhs rhs).bind
    intro f
    obtain ⟨o, ho⟩ := exists_negatedIf negated f
    exact uniform_pure o fun d => ho d.quote
  | case3 negated op lhs rhs hop hcmp =>
    simp only [condition, hop, hcmp]
    exact uniform_obstructed _ _
  | case4 negated method receiver args => exact uniform_callCondition scope _ _ _ _
  | case5 negated n ih => exact ih
  | case6 negated n => exact uniform_obstructed _ _
  | case7 negated n ih => exact ih
  | case8 negated column tableAlias => exact uniform_obstructed _ _
  | case9 negated v => exact uniform_obstructed _ _
  | case10 negated typeName args build => exact uniform_obstructed _ _

theorem uniform_joinCondition (n : Node) : Uniform fun d => d.joinCondition scope n := by
  induction n using joinCondition.induct with
  | case1 op lhs rhs hop ihl ihr =>
    simp only [joinCondition, hop, if_true]
    apply ihl.bind
    intro l
    apply ihr.bind
    intro r
    exact uniform_pure _ fun d => (quoted_joined op l r d.quote).symm
  | case2 op lhs rhs hop hcmp l r hr hl =>
    simp only [joinCondition, hop, hcmp, hl, hr]
    refine uniform_pure
      (columnOutline scope l ++ Outline.text (" " ++ op.sql ++ " ") ++ columnOutline scope r) ?_
    intro d
    rw [Outline.quoted_append, quoted_columnOutline_append, quoted_columnOutline,
      ← Fragment.text_append]
    simp only [String.append_assoc]
  | case3 op lhs rhs hop hcmp hcolumns =>
    simp only [joinCondition, hop, hcmp, if_true]
    cases hl : lhs.column? with
    | none => exact uniform_obstructed _ _
    | some l =>
      cases hr : rhs.column? with
      | none => exact uniform_obstructed _ _
      | some r => exact (hcolumns l r hl hr).elim
  | case4 op lhs rhs hop hcmp =>
    simp only [joinCondition, hop, hcmp]
    exact uniform_obstructed _ _
  | case5 n ih => exact ih
  | case6 n hbinary hconvert =>
    cases n with
    | binary op lhs rhs => exact (hbinary op lhs rhs rfl).elim
    | convert n => exact (hconvert n rfl).elim
    | _ => exact uniform_obstructed _ _

theorem uniform_orderColumn (n : Node) : Uniform fun d => d.orderColumn scope n := by
  unfold orderColumn
  cases hcolumn : n.column? with
  | none => exact uniform_obstructed _ _
  | some c => exact uniform_pure _ fun d => (quoted_columnOutline scope d c).symm

theorem uniform_compile (clause : Clause) (n : Node) :
    Uniform fun d => d.compile scope clause n := by
  cases clause with
  | filter => exact uniform_condition scope false n
  | join => exact uniform_joinCondition scope n
  | order => exact uniform_orderColumn scope n

end Dialect

/-! ### Any two dialects -/

/-- What an expression is compiled for.  The condition of a deletion is read like that of a query;
its scope says that columns are not qualified. -/
inductive Purpose where
  | filter
  | deletion
  | join
  | order

def Purpose.clause : Purpose → Clause
  | filter => .filter
  | deletion => .filter
  | join => .join
  | order => .order

/-- For every purpose, scope, expression and state of the names there is one outcome, a fault or an
outline, and one state of the names after it, such that every dialect fails with that fault, or
writes that outline in its own quotes, and leaves the names so.  Any two dialects therefore fail
together and with the same fault, or bind the same values under the same names in the same order to
tokens that differ in the quotes of identifiers. -/
theorem Dialect.compile_from_outline (purpose : Purpose) (scope : Scope) (n : Node)
    (names : Names) :
    (∃ (outcome : Except Fault Outline) (after : Names), ∀ d : Dialect,
      d.compile scope purpose.clause n names = (outcome.map (Outline.quoted d.quote), after)) ∧
      ∀ d d' : Dialect,
        let run := d.compile scope purpose.clause n names
        let run' := d'.compile scope purpose.clause n names
        run.2 = run'.2 ∧ (∀ e, run.1 = .error e ↔ run'.1 = .error e) ∧
          ∀ f, run.1 = .ok f → ∃ f', run'.1 = .ok f' ∧ f'.bindings = f.bindings := by
  obtain ⟨outcome, after, houtcome⟩ := uniform_compile scope purpose.clause n names
  refine ⟨⟨outcome, after, houtcome⟩, ?_⟩
  intro d d' run run'
  have hrun : run = (outcome.map (Outline.quoted d.quote), after) := houtcome d
  have hrun' : run' = (outcome.map (Outline.quoted d'.quote), after) := houtcome d'
  rw [hrun, hrun']
  cases outcome with
  | error fault =>
    refine ⟨rfl, fun e => Iff.rfl, ?_⟩
    intro f hf
    cases hf
  | ok o =>
    refine ⟨rfl, ?_, ?_⟩
    · intro e
      constructor
      · intro h
        cases h
      · intro h
        cases h
    · intro f hf
      cases hf
      exact ⟨o.quoted d'.quote, rfl, rfl⟩

end BoundSql
