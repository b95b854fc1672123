import BoundSql.Expr.Compile

/-!
# What conditions are put together from

The fragment of an expression is put together from texts, from markers of values, and from the
patterns and lists of a dialect, with a negation or an operator written around them.
`Claiming.Composed` says so of a computation by the way it is put together.  What texts, markers,
patterns and lists have in common, and what is kept when text is written around a fragment or
between two, therefore holds of every expression (`Dialect.composed_compile`), without going
through the forms of expressions again.
-/

namespace BoundSql

namespace Claiming

/-- Computations that write the fragments of expressions. -/
inductive Composed : Claiming Fragment → Prop where
  | fault (e : Fault) : Composed (fault e)
  | written (s : String) : Composed (written s)
  | marker (base : String) (v : Value) : Composed (boundAs base v)
  | pattern (d : Dialect) (method : Method) (s name : String) :
    Composed ((d.pattern method s).splice name)
  | list (d : Dialect) (vs : List Value) (name : String) : Composed ((d.forList vs).splice name)
  | after (s : String) {c : Claiming Fragment} (hc : Composed c) :
    Composed (c >>= fun f => pure (.text s ++ f))
  | negated (negated : Bool) {c : Claiming Fragment} (hc : Composed c) :
    Composed (c >>= fun f => pure (Dialect.negatedIf negated f))
  | joined (negated : Bool) (op : BinaryOp) {l r : Claiming Fragment} (hl : Composed l)
    (hr : Composed r) :
    Composed (l >>= fun f => r >>= fun g =>
      pure (Dialect.negatedIf negated (Dialect.joined op f g)))

/-- A value that is needed first: without one there is nothing but the fault. -/
theorem composed_ofExcept_bind {α : Type} {r : Except Fault α} {k : α → Claiming Fragment}
    (hk : ∀ a, Composed (k a)) : Composed (ofExcept r >>= k) := by
  cases r with
  | error e => exact .fault e
  | ok a => exact hk a

end Claiming

open Claiming

namespace Dialect

variable (d : Dialect) (scope : Scope)

theorem composed_comparison (op : BinaryOp) (lhs rhs : Node) :
    Composed (d.comparison scope op lhs rhs) := by
  unfold comparison
  split
  · exact .fault _
  · apply composed_ofExcept_bind
    intro v
    split
    · split
      · exact .written _
      · exact .written _
      · exact .fault _
    · exact .after _ (.marker _ v)

theorem composed_likeness (negated : Bool) (method : Method) (c : ColumnRef × Option String)
    (arg : Node) : Composed (d.likeness scope negated method c arg) := by
  unfold likeness
  apply composed_ofExcept_bind
  intro v
  split
  · exact .after _ (.pattern d method _ _)
  · exact .fault _

theorem composed_membership (negated : Bool) (receiver arg : Node) :
    Composed (d.membership scope negated receiver arg) := by
  unfold membership
  split
  · exact .fault _
  · apply composed_ofExcept_bind
    intro v
    split
    · exact .written _
    · exact .after _ (.list d _ _)
    · exact .fault _

theorem composed_callCondition (negated : Bool) (method : Method) (receiver : Node)
    (args : List Node) : Composed (d.callCondition scope negated method receiver args) := by
  unfold callCondition
  split
  · split
    · exact d.composed_likeness scope _ _ _ _
    · split
      · exact d.composed_membership scope _ _ _
      · exact .fault _
  · exact .fault _

theorem composed_condition (negated : Bool) (n : Node) :
    Composed (d.condition scope negated n) := by
  induction negated, n using condition.induct with
  | case1 negated op lhs rhs hop ihl ihr =>
    simp only [condition, hop, if_true]
    exact .joined negated op ihl ihr
  | case2 negated op lhs rhs hop hcmp =>
    simp only [condition, hop, hcmp]
    exact .negated negated (d.composed_comparison scope op lhs rhs)
  | case3 negated op lhs rhs hop hcmp =>
    simp only [condition, hop, hcmp]
    exact .fault _
  | case4 negated method receiver args => exact d.composed_callCondition scope _ _ _ _
  | case5 negated n ih => exact ih
  | case6 negated n => exact .fault _
  | case7 negated n ih => exact ih
  | case8 negated column tableAlias => exact .fault _
  | case9 negated v => exact .fault _
  | case10 negated typeName args build => exact .fault _

theorem composed_joinCondition (n : Node) : Composed (d.joinCondition scope n) := by
  induction n using joinCondition.induct with
  | case1 op lhs rhs hop ihl ihr =>
    simp only [joinCondition, hop, if_true]
    exact .joined false op ihl ihr
  | case2 op lhs rhs hop hcmp l r hr hl =>
    simp only [joinCondition, hop, hcmp, hl, hr]
    exact .written _
  | case3 op lhs rhs hop hcmp hcolumns =>
    simp only [joinCondition, hop, hcmp, if_true, Bool.false_eq_true, if_false]
    exact .fault _
  | case4 op lhs rhs hop hcmp =>
    simp only [joinCondition, hop, hcmp]
    exact .fault _
  | case5 n ih => exact ih
  | case6 n hbinary hconvert =>
    cases n with
    | binary op lhs rhs => exact (hbinary op lhs rhs rfl).elim
    | convert n => exact (hconvert n rfl).elim
    | _ => exact .fault _

theorem composed_orderColumn (n : Node) : Composed (d.orderColumn scope n) := by
  unfold orderColumn
  split
  · exact .written _
  · exact .fault _

theorem composed_compile (clause : Clause) (n : Node) :
    Composed (d.compile scope clause n) := by
  cases clause with
  | filter => exact d.composed_condition scope false n
  | join => exact d.composed_joinCondition scope n
  | order => exact d.composed_orderColumn scope n

end Dialect

end BoundSql
