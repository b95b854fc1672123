import BoundSql.Proofs.Alike

/-!
# Conversions

A conversion says nothing of its own: a node and the node with its conversions taken out compile in
the same way (`Dialect.compile_erased`).  Read as a column, as a value, as a condition or as the
condition of a join, a node passes over conversions each time anew, and where one of these looks at
what stands below it, as a negation does, it has to see through any number of them.

Only faults tell the two nodes apart, because they name the kind of the node that has no reading.
-/

namespace BoundSql

namespace Node

/-! ### Nodes without conversions -/

mutual

/-- The node with each conversion replaced by what it converts. -/
def erased : Node → Node
  | member column tableAlias => member column tableAlias
  | constant v => constant v
  | binary op lhs rhs => binary op lhs.erased rhs.erased
  | call method receiver args => call method receiver.erased (erasedAll args)
  | new typeName args build => new typeName (erasedAll args) build
  | convert n => n.erased
  | unary op n => unary op n.erased

/-- The nodes with each conversion replaced by what it converts. -/
def erasedAll : List Node → List Node
  | [] => []
  | n :: ns => n.erased :: erasedAll ns

end

/-- No conversion stands in the node, at any depth. -/
inductive ConversionFree : Node → Prop where
  | member (column : ColumnRef) (tableAlias : Option String) :
    ConversionFree (member column tableAlias)
  | constant (v : Value) : ConversionFree (constant v)
  | binary (op : BinaryOp) {lhs rhs : Node} (hl : ConversionFree lhs) (hr : ConversionFree rhs) :
    ConversionFree (binary op lhs rhs)
  | call (method : Method) {receiver : Node} {args : List Node} (hr : ConversionFree receiver)
    (hargs : ∀ arg ∈ args, ConversionFree arg) : ConversionFree (call method receiver args)
  | new (typeName : String) (build : List Value → Except Fault Value) {args : List Node}
    (hargs : ∀ arg ∈ args, ConversionFree arg) : ConversionFree (new typeName args build)
  | unary (op : UnaryOp) {n : Node} (hn : ConversionFree n) : ConversionFree (unary op n)

mutual

theorem conversionFree_erased : (n : Node) → n.erased.ConversionFree
  | .member column tableAlias => .member column tableAlias
  | .constant v => .constant v
  | .binary op lhs rhs => .binary op (conversionFree_erased lhs) (conversionFree_erased rhs)
  | .call method receiver args =>
    .call method (conversionFree_erased receiver) (conversionFree_erasedAll args)
  | .new typeName args build => .new typeName build (conversionFree_erasedAll args)
  | .convert n => conversionFree_erased n
  | .unary op n => .unary op (conversionFree_erased n)

theorem conversionFree_erasedAll : (ns : List Node) → ∀ n ∈ erasedAll ns, n.ConversionFree
  | [] => fun _ hn => by cases hn
  | n :: ns => fun m hm => by
    rcases List.mem_cons.mp hm with rfl | hm
    · exact conversionFree_erased n
    · exact conversionFree_erasedAll ns m hm

end

/-! ### Columns and values -/

theorem column?_erased (n : Node) : n.erased.column? = n.column? := by
  induction n using column?.induct with
  | case1 column tableAlias => rfl
  | case2 n ih => exact ih
  | case3 n hmember hconvert =>
    cases n with
    | member column tableAlias => exact (hmember _ _ rfl).elim
    | convert n => exact (hconvert _ rfl).elim
    | _ => rfl

mutual

/-- Both nodes have the same value, or none. -/
theorem evaluate_erased : (n : Node) → SameOutcome Eq n.evaluate n.erased.evaluate
  | .constant v => .ok rfl
  | .convert n => evaluate_erased n
  | .new typeName args build => by
    rw [erased, evaluate, evaluate]
    rcases (evaluateAll_erased args).both with ⟨vs, hvs, hvs'⟩ | ⟨e, e', he, he'⟩
    · rw [hvs, hvs']
      exact .refl _
    · rw [he, he']
      exact .error e e'
  | .member column tableAlias => .error _ _
  | .binary op lhs rhs => .error _ _
  | .call method receiver args => .error _ _
  | .unary op n => .error _ _

theorem evaluateAll_erased : (ns : List Node) →
    SameOutcome Eq (evaluateAll ns) (evaluateAll (erasedAll ns))
  | [] => .ok rfl
  | n :: ns => by
    rw [erasedAll, evaluateAll, evaluateAll]
    rcases (evaluate_erased n).both with ⟨v, hv, hv'⟩ | ⟨e, e', he, he'⟩
    · rw [hv, hv']
      rcases (evaluateAll_erased ns).both with ⟨vs, hvs, hvs'⟩ | ⟨e, e', he, he'⟩
      · rw [hvs, hvs']
        exact .refl _
      · rw [he, he']
        exact .error e e'
    · rw [he, he']
      exact .error e e'

end

end Node

/-! ### Clauses -/

open Claiming

theorem Claiming.alike_refl {α : Type} (c : Claiming α) : Alike Eq c c := by
  rintro names _ rfl
  exact ⟨rfl, .refl _⟩

/-- A value that is needed first: both nodes have it or neither. -/
theorem Claiming.alike_evaluate_bind (n : Node) (k : Value → Claiming Fragment) :
    Alike Eq (ofExcept n.evaluate >>= k) (ofExcept n.erased.evaluate >>= k) := by
  refine (alike_ofExcept n.evaluate_erased).bind ?_
  rintro v _ rfl
  exact alike_refl _

namespace Dialect

variable (d : Dialect) (scope : Scope)

theorem comparison_erased (op : BinaryOp) (lhs rhs : Node) :
    Alike Eq (d.comparison scope op lhs rhs) (d.comparison scope op lhs.erased rhs.erased) := by
  unfold comparison
  rw [lhs.column?_erased]
  split
  · exact alike_obstructed _ _ _ _ _
  · exact alike_evaluate_bind rhs _

theorem membership_erased (negated : Bool) (receiver arg : Node) :
    Alike Eq (d.membership scope negated receiver arg)
      (d.membership scope negated receiver.erased arg.erased) := by
  unfold membership
  rw [arg.column?_erased]
  split
  · exact alike_obstructed _ _ _ _ _
  · refine (alike_ofExcept receiver.evaluate_erased).bind ?_
    rintro v _ rfl
    -- where no list is found, the fault names the kind of the receiver
    split
    · exact alike_refl _
    · exact alike_refl _
    · exact alike_obstructed _ _ _ _ _

theorem callCondition_erased (negated : Bool) (method : Method) (receiver : Node)
    (args : List Node) :
    Alike Eq (d.callCondition scope negated method receiver args)
      (d.callCondition scope negated method receiver.erased (Node.erasedAll args)) := by
  rcases args with - | ⟨arg, - | ⟨second, more⟩⟩
  · exact alike_refl _
  · simp only [callCondition, Node.erasedAll, receiver.column?_erased]
    split
    · exact alike_evaluate_bind arg _
    · split
      · exact d.membership_erased scope negated receiver arg
      · exact alike_refl _
  · exact alike_obstructed _ _ _ _ _

/-- A negation in front of a conversion is one in front of what is converted. -/
theorem condition_erased (negated : Bool) (n : Node) :
    Alike Eq (d.condition scope negated n) (d.condition scope negated n.erased) := by
  induction negated, n using condition.induct with
  | case1 negated op lhs rhs hop ihl ihr =>
    simp only [Node.erased, condition, hop, if_true]
    refine ihl.bind ?_
    rintro l _ rfl
    refine ihr.bind ?_
    rintro r _ rfl
    exact alike_refl _
  | case2 negated op lhs rhs hop hcmp =>
    simp only [Node.erased, condition, hop, hcmp, if_true, Bool.false_eq_true, if_false]
    refine (d.comparison_erased scope op lhs rhs).bind ?_
    rintro f _ rfl
    exact alike_refl _
  | case3 negated op lhs rhs hop hcmp =>
    simp only [Node.erased, condition, hop, hcmp, Bool.false_eq_true, if_false]
    exact alike_refl _
  | case4 negated method receiver args => exact d.callCondition_erased scope _ _ _ _
  | case5 negated n ih => exact ih
  | case6 negated n => exact alike_refl _
  | case7 negated n ih => exact ih
  | case8 negated column tableAlias => exact alike_refl _
  | case9 negated v => exact alike_refl _
  | case10 negated typeName args build => exact alike_refl _

theorem joinCondition_erased (n : Node) :
    Alike Eq (d.joinCondition scope n) (d.joinCondition scope n.erased) := by
  induction n using joinCondition.induct with
  | case1 op lhs rhs hop ihl ihr =>
    simp only [Node.erased, joinCondition, hop, if_true]
    refine ihl.bind ?_
    rintro l _ rfl
    refine ihr.bind ?_
    rintro r _ rfl
    exact alike_refl _
  | case2 op lhs rhs hop hcmp l r hr hl =>
    simp only [Node.erased, joinCondition, hop, hcmp, Node.column?_erased]
    exact alike_refl _
  | case3 op lhs rhs hop hcmp hcolumns =>
    simp only [Node.erased, joinCondition, hop, hcmp, Node.column?_erased]
    exact alike_refl _
  | case4 op lhs rhs hop hcmp =>
    simp only [Node.erased, joinCondition, hop, hcmp]
    exact alike_refl _
  | case5 n ih => exact ih
  | case6 n hbinary hconvert =>
    cases n with
    | binary op lhs rhs => exact (hbinary op lhs rhs rfl).elim
    | convert n => exact (hconvert n rfl).elim
    | _ => exact alike_obstructed _ _ _ _ _

theorem orderColumn_erased (n : Node) :
    Alike Eq (d.orderColumn scope n) (d.orderColumn scope n.erased) := by
  unfold orderColumn
  rw [n.column?_erased]
  split
  · exact alike_refl _
  · exact alike_obstructed _ _ _ _ _

/-- An expression is compiled for a clause if and only if it is without its conversions, and then to
the same tokens and the same bindings.  The same names are claimed, also where it is not. -/
theorem compile_erased (clause : Clause) (n : Node) (names : Names) :
    n.erased.ConversionFree ∧
      (∀ f after, d.compile scope clause n names = (.ok f, after) ↔
        d.compile scope clause n.erased names = (.ok f, after)) ∧
      (d.compile scope clause n names).2 = (d.compile scope clause n.erased names).2 := by
  have halike : Alike Eq (d.compile scope clause n) (d.compile scope clause n.erased) := by
    cases clause with
    | filter => exact d.condition_erased scope false n
    | join => exact d.joinCondition_erased scope n
    | order => exact d.orderColumn_erased scope n
  obtain ⟨hnames, hresult⟩ := halike names names rfl
  refine ⟨n.conversionFree_erased, ?_, hnames⟩
  intro f after
  rw [Prod.ext_iff, Prod.ext_iff, hnames]
  rcases hresult.both with ⟨g, hg, hg'⟩ | ⟨e, e', he, he'⟩
  · rw [hg, hg']
  · rw [he, he']
    simp

end Dialect

end BoundSql
