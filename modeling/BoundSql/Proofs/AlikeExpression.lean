import BoundSql.Proofs.Alike

/-!
# Expressions that differ in the values they bind

Expressions are alike when they have one shape and the same columns, and the values in them are
alike.  Such expressions compile to fragments that are alike, or both do not compile.
-/

namespace BoundSql

variable {d : Dialect}

/-! ### Values of expressions -/

/-- Expressions of one shape whose values are alike.  A value that is constructed may be constructed
in any way. -/
inductive Node.Alike (d : Dialect) : Node → Node → Prop where
  | member (column : ColumnRef) (tableAlias : Option String) :
    Alike d (member column tableAlias) (member column tableAlias)
  | constant {v w : Value} (h : v.Alike d w) : Alike d (constant v) (constant w)
  | binary (op : BinaryOp) {l l' r r' : Node} (hl : Alike d l l') (hr : Alike d r r') :
    Alike d (binary op l r) (binary op l' r')
  | call (method : Method) {receiver receiver' : Node} {args args' : List Node}
    (hreceiver : Alike d receiver receiver') (hlength : args.length = args'.length)
    (hargs : ∀ p ∈ args.zip args', Alike d p.1 p.2) :
    Alike d (call method receiver args) (call method receiver' args')
  | new {typeName typeName' : String} {args args' : List Node}
    {build build' : List Value → Except Fault Value}
    (h : SameOutcome (Value.Alike d) (new typeName args build).evaluate
      (new typeName' args' build').evaluate) :
    Alike d (new typeName args build) (new typeName' args' build')
  | convert {n n' : Node} (h : Alike d n n') : Alike d (convert n) (convert n')
  | unary (op : UnaryOp) {n n' : Node} (h : Alike d n n') : Alike d (unary op n) (unary op n')

namespace Node.Alike

theorem column?_eq {n n' : Node} (h : Alike d n n') : n.column? = n'.column? := by
  induction h with
  | convert _ ih => exact ih
  | _ => rfl

theorem evaluate {n n' : Node} (h : Alike d n n') :
    SameOutcome (Value.Alike d) n.evaluate n'.evaluate := by
  induction h with
  | member column tableAlias => exact .error _ _
  | constant h =>
    rw [Node.evaluate, Node.evaluate]
    exact .ok h
  | binary op _ _ _ _ => exact .error _ _
  | call method _ _ _ _ _ => exact .error _ _
  | new h => exact h
  | convert _ ih =>
    rw [Node.evaluate, Node.evaluate]
    exact ih
  | unary op _ _ => exact .error _ _

end Node.Alike

/-- Scalars of one kind are both texts or both none. -/
theorem Scalar.texts_or_none {a b : Scalar} (h : a.type.name = b.type.name) :
    (∃ s u, a = .varchar s ∧ b = .varchar u) ∨
      (∀ s, a ≠ .varchar s) ∧ ∀ u, b ≠ .varchar u := by
  have htext : ∀ c : Scalar, c.type.name = "VARCHAR" → ∃ s, c = .varchar s := by
    intro c hc
    cases c with
    | varchar s => exact ⟨s, rfl⟩
    | integer t n => cases t <;> simp [type, SqlType.name] at hc
    | binary t x => cases t <;> simp [type, SqlType.name] at hc
    | _ => simp [type, SqlType.name] at hc
  by_cases hname : a.type.name = "VARCHAR"
  · obtain ⟨s, rfl⟩ := htext a hname
    obtain ⟨u, rfl⟩ := htext b (h ▸ hname)
    exact .inl ⟨s, u, rfl, rfl⟩
  · refine .inr ⟨?_, ?_⟩
    · rintro s rfl
      exact hname rfl
    · rintro u rfl
      exact hname h

/-! ### Conditions -/

namespace Dialect

open Claiming

variable (scope : Scope)

theorem alike_negatedIf (negated : Bool) {f g : Fragment} (h : f.Alike d g) :
    (negatedIf negated f).Alike d (negatedIf negated g) := by
  cases negated with
  | false => exact h
  | true => exact ((Fragment.alike_text _).append h).append (Fragment.alike_text _)

theorem alike_joined (op : BinaryOp) {l l' r r' : Fragment} (hl : l.Alike d l')
    (hr : r.Alike d r') : (joined op l r).Alike d (joined op l' r') := by
  have hopened := (Fragment.alike_text "(").append hl
  exact ((hopened.append (Fragment.alike_text _)).append hr).append (Fragment.alike_text _)

theorem alike_comparison (op : BinaryOp) {lhs lhs' rhs rhs' : Node} (hl : lhs.Alike d lhs')
    (hr : rhs.Alike d rhs') :
    Alike (Fragment.Alike d) (d.comparison scope op lhs rhs) (d.comparison scope op lhs' rhs') := by
  unfold comparison
  rw [hl.column?_eq]
  split
  · exact alike_obstructed _ _ _ _ _
  · refine (alike_ofExcept hr.evaluate).bind ?_
    intro v w hvalue
    rw [hvalue.isNull_eq]
    split
    · split
      · exact alike_written _
      · exact alike_written _
      · exact alike_obstructed _ _ _ _ _
    · refine (alike_boundAs _ hvalue.sameMarker).bind ?_
      intro f g hparam
      exact parallel_pure ((Fragment.alike_text _).append hparam)

theorem alike_likeness (negated : Bool) (method : Method) (c : ColumnRef × Option String)
    {arg arg' : Node} (h : arg.Alike d arg') :
    Alike (Fragment.Alike d) (d.likeness scope negated method c arg)
      (d.likeness scope negated method c arg') := by
  unfold likeness
  refine (alike_ofExcept h.evaluate).bind ?_
  intro v w hvalue
  cases hvalue with
  | null _ => exact alike_obstructed _ _ _ _ _
  | list _ => exact alike_obstructed _ _ _ _ _
  | @scalar a b hkind =>
    rcases Scalar.texts_or_none hkind with ⟨s, u, rfl, rfl⟩ | ⟨ha, hb⟩
    · have hpattern : Alike (Fragment.Alike d) ((d.pattern method s).splice c.1.field)
          ((d.pattern method u).splice c.1.field) := by
        cases method <;> exact WrappedValue.alike_splice _ _ (.scalar rfl)
      apply hpattern.bind
      intro f g hpiece
      exact parallel_pure ((Fragment.alike_text _).append hpiece)
    · split
      · next s hs => exact absurd (Value.scalar.inj hs) (ha s)
      · split
        · next u hu => exact absurd (Value.scalar.inj hu) (hb u)
        · exact alike_obstructed _ _ _ _ _

theorem alike_forList {vs ws : List Value} (h : List.Forall₂ d.SameMarker vs ws) (name : String) :
    Alike (Fragment.Alike d) ((d.forList vs).splice name) ((d.forList ws).splice name) := by
  unfold forList
  rw [h.length_eq]
  exact WrappedValue.alike_splice _ _ (.list h)

theorem alike_membership (negated : Bool) {receiver receiver' arg arg' : Node}
    (hreceiver : receiver.Alike d receiver') (harg : arg.Alike d arg') :
    Alike (Fragment.Alike d) (d.membership scope negated receiver arg)
      (d.membership scope negated receiver' arg') := by
  unfold membership
  rw [harg.column?_eq]
  split
  · exact alike_obstructed _ _ _ _ _
  · refine (alike_ofExcept hreceiver.evaluate).bind ?_
    intro v w hvalue
    cases hvalue with
    | null _ => exact alike_obstructed _ _ _ _ _
    | scalar _ => exact alike_obstructed _ _ _ _ _
    | list hitems =>
      cases hitems with
      | nil => exact alike_written _
      | cons hfirst hrest =>
        refine (alike_forList (.cons hfirst hrest) _).bind ?_
        intro f g hlist
        exact parallel_pure ((Fragment.alike_text _).append hlist)

theorem alike_callCondition (negated : Bool) (method : Method) {receiver receiver' : Node}
    {args args' : List Node} (hreceiver : receiver.Alike d receiver')
    (hlength : args.length = args'.length) (hargs : ∀ p ∈ args.zip args', p.1.Alike d p.2) :
    Alike (Fragment.Alike d) (d.callCondition scope negated method receiver args)
      (d.callCondition scope negated method receiver' args') := by
  rcases args with - | ⟨arg, - | ⟨second, more⟩⟩ <;>
    rcases args' with - | ⟨arg', - | ⟨second', more'⟩⟩ <;> simp at hlength
  · exact alike_obstructed _ _ _ _ _
  · have harg : arg.Alike d arg' := hargs (arg, arg') (by simp)
    simp only [callCondition]
    rw [hreceiver.column?_eq]
    split
    · exact alike_likeness scope _ _ _ harg
    · split
      · exact alike_membership scope _ hreceiver harg
      · exact alike_obstructed _ _ _ _ _
  · exact alike_obstructed _ _ _ _ _

/-- Conditions of expressions that are alike. -/
theorem alike_condition {n n' : Node} (h : n.Alike d n') (negated : Bool) :
    Alike (Fragment.Alike d) (d.condition scope negated n) (d.condition scope negated n') := by
  induction h generalizing negated with
  | member column tableAlias => exact alike_obstructed _ _ _ _ _
  | constant h => exact alike_obstructed _ _ _ _ _
  | binary op hl hr ihl ihr =>
    rw [condition, condition]
    split
    · refine (ihl false).bind ?_
      intro l l' hleft
      refine (ihr false).bind ?_
      intro r r' hright
      exact parallel_pure (alike_negatedIf negated (alike_joined op hleft hright))
    · split
      · refine (alike_comparison scope op hl hr).bind ?_
        intro f g hcomparison
        exact parallel_pure (alike_negatedIf negated hcomparison)
      · exact alike_obstructed _ _ _ _ _
  | call method hreceiver hlength hargs _ _ =>
    exact alike_callCondition scope negated method hreceiver hlength hargs
  | new h => exact alike_obstructed _ _ _ _ _
  | convert h ih => exact ih negated
  | unary op h ih =>
    cases op with
    | neg => exact alike_obstructed _ _ _ _ _
    | not => exact ih (!negated)

theorem alike_joinCondition {n n' : Node} (h : n.Alike d n') :
    Alike (Fragment.Alike d) (d.joinCondition scope n) (d.joinCondition scope n') := by
  induction h with
  | binary op hl hr ihl ihr =>
    rw [joinCondition, joinCondition]
    split
    · apply ihl.bind
      intro l l' hleft
      apply ihr.bind
      intro r r' hright
      exact parallel_pure (alike_joined op hleft hright)
    · split
      · rw [hl.column?_eq, hr.column?_eq]
        split
        · exact alike_written _
        · exact alike_obstructed _ _ _ _ _
      · exact alike_obstructed _ _ _ _ _
  | convert h ih => exact ih
  | _ => exact alike_obstructed _ _ _ _ _

/-- Expressions that are alike, compiled for a clause. -/
theorem alike_compile (clause : Clause) {n n' : Node} (h : n.Alike d n') :
    Alike (Fragment.Alike d) (d.compile scope clause n) (d.compile scope clause n') := by
  cases clause with
  | filter => exact alike_condition scope h false
  | join => exact alike_joinCondition scope h
  | order =>
    simp only [compile, orderColumn]
    rw [h.column?_eq]
    split
    · exact alike_written _
    · exact alike_obstructed _ _ _ _ _

end Dialect

end BoundSql
