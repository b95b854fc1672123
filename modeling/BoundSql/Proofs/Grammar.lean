import BoundSql.Proofs.Binding
import BoundSql.Proofs.Outline

/-!
# The grammar of expressions

Which expressions have a form in a clause is a matter of their shape and of the values in them:
conditions in a filter, comparisons of columns in a join, a column in an ordering.  The grammar says
so by inductive predicates, apart from the compiler, which finds out on the way and has five
mutually dependent readings of a node.  `Claiming.Settled` ties the two together: a computation that
succeeds, whatever names are taken, if a proposition holds, and otherwise fails with one fault,
whatever names are taken.  Every step of the compiler is settled by its rule of the grammar.
-/

namespace BoundSql

/-! ### Columns and values -/

namespace Node

/-- A column under any number of conversions. -/
inductive IsMember : Node → Prop where
  | member (column : ColumnRef) (tableAlias : Option String) : IsMember (.member column tableAlias)
  | convert {n : Node} (hn : IsMember n) : IsMember (.convert n)

mutual

/-- A node that stands for a value: a constant, a conversion, or what a constructor makes of other
values. -/
inductive Denotes : Node → Value → Prop where
  | constant (v : Value) : Denotes (.constant v) v
  | convert {n : Node} {v : Value} (hn : Denotes n v) : Denotes (.convert n) v
  | new {typeName : String} {args : List Node} {build : List Value → Except Fault Value}
    {vs : List Value} {v : Value} (hargs : DenoteAll args vs) (hbuild : build vs = .ok v) :
    Denotes (.new typeName args build) v

inductive DenoteAll : List Node → List Value → Prop where
  | nil : DenoteAll [] []
  | cons {n : Node} {ns : List Node} {v : Value} {vs : List Value} (hn : Denotes n v)
    (hns : DenoteAll ns vs) : DenoteAll (n :: ns) (v :: vs)

end

/-! ### Conditions -/

/-- A node that says something about a row. -/
inductive IsCondition : Node → Prop where
  | logical {op : BinaryOp} {lhs rhs : Node} (hop : op = .and ∨ op = .or)
    (hl : IsCondition lhs) (hr : IsCondition rhs) : IsCondition (.binary op lhs rhs)
  /-- NULL is only compared by `=` and `<>`. -/
  | comparison {op : BinaryOp} {lhs rhs : Node} {v : Value} (hop : op.isComparison = true)
    (hl : lhs.IsMember) (hr : rhs.Denotes v) (hnull : v.isNull = true → op = .eq ∨ op = .ne) :
    IsCondition (.binary op lhs rhs)
  | likeness {method : Method} {receiver arg : Node} {s : String} (hr : receiver.IsMember)
    (ha : arg.Denotes (.varchar s)) : IsCondition (.call method receiver [arg])
  | membership {receiver arg : Node} {items : List Value} {item : SqlType}
    (hcolumn : ¬ receiver.IsMember) (hr : receiver.Denotes (.list items item))
    (ha : arg.IsMember) : IsCondition (.call .contains receiver [arg])
  | not {n : Node} (hn : IsCondition n) : IsCondition (.unary .not n)
  | convert {n : Node} (hn : IsCondition n) : IsCondition (.convert n)

/-- A node that compares columns of joined tables. -/
inductive IsJoinCondition : Node → Prop where
  | logical {op : BinaryOp} {lhs rhs : Node} (hop : op = .and ∨ op = .or)
    (hl : IsJoinCondition lhs) (hr : IsJoinCondition rhs) : IsJoinCondition (.binary op lhs rhs)
  | comparison {op : BinaryOp} {lhs rhs : Node} (hop : op.isComparison = true)
    (hl : lhs.IsMember) (hr : rhs.IsMember) : IsJoinCondition (.binary op lhs rhs)
  | convert {n : Node} (hn : IsJoinCondition n) : IsJoinCondition (.convert n)

end Node

/-- The expressions that a purpose has a use for. -/
def Purpose.Accepts : Purpose → Node → Prop
  | filter, n => n.IsCondition
  | deletion, n => n.IsCondition
  | join, n => n.IsJoinCondition
  | order, n => n.IsMember

/-! ### Reading columns and values -/

theorem BinaryOp.isLogical_iff {op : BinaryOp} : op.isLogical = true ↔ op = .and ∨ op = .or := by
  cases op <;> simp [isLogical]

namespace Node

theorem isMember_iff {n : Node} : n.IsMember ↔ ∃ c, n.column? = some c := by
  constructor
  · intro h
    induction h with
    | member column tableAlias => exact ⟨_, rfl⟩
    | convert _ ih => exact ih
  · rintro ⟨c, hc⟩
    induction n using column?.induct with
    | case1 column tableAlias => exact .member column tableAlias
    | case2 n ih => exact .convert (ih hc)
    | case3 n hmember hconvert => simp [column?] at hc

theorem not_isMember_iff {n : Node} : ¬ n.IsMember ↔ n.column? = none := by
  rw [isMember_iff]
  cases n.column? <;> simp

mutual

theorem evaluate_of_denotes : {n : Node} → {v : Value} → n.Denotes v → n.evaluate = .ok v
  | _, _, .constant _ => rfl
  | _, _, .convert hn => by simp [evaluate, evaluate_of_denotes hn]
  | _, _, .new hargs hbuild => by simp [evaluate, evaluateAll_of_denoteAll hargs, hbuild]

theorem evaluateAll_of_denoteAll : {ns : List Node} → {vs : List Value} → DenoteAll ns vs →
    evaluateAll ns = .ok vs
  | _, _, .nil => rfl
  | _, _, .cons hn hns => by
    simp [evaluateAll, evaluate_of_denotes hn, evaluateAll_of_denoteAll hns]

end

mutual

/-- A node has a value, or the fault says which node cannot be compiled. -/
theorem evaluate_settled : (n : Node) →
    (∃ v, n.evaluate = .ok v ∧ n.Denotes v) ∨
      ∃ e kind, n.evaluate = .error e ∧ e.category = .compile kind
  | .constant v => .inl ⟨v, rfl, .constant v⟩
  | .convert n => by
    rcases evaluate_settled n with ⟨v, hv, hn⟩ | herror
    · exact .inl ⟨v, hv, .convert hn⟩
    · exact .inr herror
  | .new typeName args build => by
    rcases evaluateAll_settled args with ⟨vs, hvs, hargs⟩ | ⟨e, kind, he, hkind⟩
    · cases hbuild : build vs with
      | error e => exact .inr ⟨.construction typeName e, .new, by simp [evaluate, hvs, hbuild], rfl⟩
      | ok v => exact .inl ⟨v, by simp [evaluate, hvs, hbuild], .new hargs hbuild⟩
    · exact .inr ⟨e, kind, by simp [evaluate, he], hkind⟩
  | .member column _ => .inr ⟨.compile .member (.columnForValue column.name), .member, rfl, rfl⟩
  | .binary .. => .inr ⟨.compile .binary .notEvaluable, .binary, rfl, rfl⟩
  | .call .. => .inr ⟨.compile .call .notEvaluable, .call, rfl, rfl⟩
  | .unary .. => .inr ⟨.compile .unary .notEvaluable, .unary, rfl, rfl⟩

theorem evaluateAll_settled : (ns : List Node) →
    (∃ vs, evaluateAll ns = .ok vs ∧ DenoteAll ns vs) ∨
      ∃ e kind, evaluateAll ns = .error e ∧ e.category = .compile kind
  | [] => .inl ⟨[], rfl, .nil⟩
  | n :: ns => by
    rcases evaluate_settled n with ⟨v, hv, hn⟩ | ⟨e, kind, he, hkind⟩
    · rcases evaluateAll_settled ns with ⟨vs, hvs, hns⟩ | ⟨e, kind, he, hkind⟩
      · exact .inl ⟨v :: vs, by simp [evaluateAll, hv, hvs], .cons hn hns⟩
      · exact .inr ⟨e, kind, by simp [evaluateAll, hv, he], hkind⟩
    · exact .inr ⟨e, kind, by simp [evaluateAll, he], hkind⟩

end

/-- A node stands for one value at most. -/
theorem Denotes.unique {n : Node} {v w : Value} (hv : n.Denotes v) (hw : n.Denotes w) : v = w := by
  have h : (Except.ok v : Except Fault Value) = .ok w :=
    (evaluate_of_denotes hv).symm.trans (evaluate_of_denotes hw)
  exact Except.ok.inj h

theorem not_denotes_of_error {n : Node} {e : Fault} (he : n.evaluate = .error e) (v : Value) :
    ¬ n.Denotes v := by
  intro hn
  rw [evaluate_of_denotes hn] at he
  cases he

end Node

/-! ### Settled computations -/

namespace Claiming

/-- The computation succeeds where `p` holds, and otherwise fails with a fault of the compiler,
both whatever names are taken. -/
def Settled (p : Prop) (c : Claiming Fragment) : Prop :=
  (p ∧ ∀ names, ∃ f after, c names = (.ok f, after)) ∨
    (¬ p ∧ ∃ e kind, e.category = .compile kind ∧ ∀ names, ∃ after, c names = (.error e, after))

variable {p q : Prop} {c : Claiming Fragment}

theorem Settled.congr (hc : Settled p c) (hpq : p ↔ q) : Settled q c := by
  rcases hc with ⟨hp, hok⟩ | ⟨hp, herror⟩
  · exact .inl ⟨hpq.mp hp, hok⟩
  · exact .inr ⟨fun hq => hp (hpq.mpr hq), herror⟩

theorem settled_written (s : String) (hp : p) : Settled p (written s) :=
  .inl ⟨hp, fun names => ⟨_, names, rfl⟩⟩

theorem settled_obstructed (kind : NodeKind) (obstacle : Obstacle) (hp : ¬ p) :
    Settled p (obstructed kind obstacle) :=
  .inr ⟨hp, _, kind, rfl, fun names => ⟨names, rfl⟩⟩

theorem settled_boundAs (base : String) (v : Value) (hp : p) : Settled p (boundAs base v) :=
  .inl ⟨hp, fun _ => ⟨_, _, rfl⟩⟩

theorem Settled.map {g : Fragment → Fragment} (hc : Settled p c) :
    Settled p (c >>= fun f => pure (g f)) := by
  rcases hc with ⟨hp, hok⟩ | ⟨hp, e, kind, hkind, herror⟩
  · refine .inl ⟨hp, fun names => ?_⟩
    obtain ⟨f, after, hrun⟩ := hok names
    refine ⟨g f, after, ?_⟩
    rw [bind_apply, hrun]
    rfl
  · refine .inr ⟨hp, e, kind, hkind, fun names => ?_⟩
    obtain ⟨after, hrun⟩ := herror names
    refine ⟨after, ?_⟩
    rw [bind_apply, hrun]

/-- Of two computations the first one that fails decides. -/
theorem Settled.map₂ {c' : Claiming Fragment} {g : Fragment → Fragment → Fragment}
    (hc : Settled p c) (hc' : Settled q c') :
    Settled (p ∧ q) (c >>= fun l => c' >>= fun r => pure (g l r)) := by
  rcases hc with ⟨hp, hok⟩ | ⟨hp, e, kind, hkind, herror⟩
  · rcases hc' with ⟨hq, hok'⟩ | ⟨hq, e, kind, hkind, herror⟩
    · refine .inl ⟨⟨hp, hq⟩, fun names => ?_⟩
      obtain ⟨l, middle, hl⟩ := hok names
      obtain ⟨r, after, hr⟩ := hok' middle
      refine ⟨g l r, after, ?_⟩
      rw [bind_apply, hl]
      show (c' >>= _) middle = _
      rw [bind_apply, hr]
      rfl
    · refine .inr ⟨fun h => hq h.2, e, kind, hkind, fun names => ?_⟩
      obtain ⟨l, middle, hl⟩ := hok names
      obtain ⟨after, hr⟩ := herror middle
      refine ⟨after, ?_⟩
      rw [bind_apply, hl]
      show (c' >>= _) middle = _
      rw [bind_apply, hr]
  · refine .inr ⟨fun h => hp h.1, e, kind, hkind, fun names => ?_⟩
    obtain ⟨after, hrun⟩ := herror names
    refine ⟨after, ?_⟩
    rw [bind_apply, hrun]

/-- A value that is needed first: without one the node cannot be compiled. -/
theorem settled_evaluate_bind {n : Node} {k : Value → Claiming Fragment}
    (hvalue : ∀ v, n.Denotes v → Settled p (k v)) (hnone : (∀ v, ¬ n.Denotes v) → ¬ p) :
    Settled p (ofExcept n.evaluate >>= k) := by
  rcases n.evaluate_settled with ⟨v, hv, hn⟩ | ⟨e, kind, he, hkind⟩
  · rw [hv]
    exact hvalue v hn
  · rw [he]
    exact .inr ⟨hnone (Node.not_denotes_of_error he), e, kind, hkind, fun names => ⟨names, rfl⟩⟩

end Claiming

open Claiming

/-! ### Expressions -/

namespace Dialect

variable (d : Dialect) (scope : Scope) {p : Prop}

/-- A list has as many markers as items, so binding it cannot fail. -/
theorem settled_forList (name : String) (vs : List Value) (hp : p) :
    Settled p ((d.forList vs).splice name) := by
  refine .inl ⟨hp, fun names => ?_⟩
  obtain ⟨bindings, -, -, hrun⟩ := WrappedValue.splice_forList d name vs names
  exact ⟨_, _, hrun⟩

theorem settled_pattern (method : Method) (s name : String) (hp : p) :
    Settled p ((d.pattern method s).splice name) := by
  refine .inl ⟨hp, fun names => ?_⟩
  cases method <;> exact ⟨_, _, rfl⟩

theorem settled_comparison {op : BinaryOp} (hop : op.isComparison = true) (lhs rhs : Node) :
    Settled (Node.IsCondition (.binary op lhs rhs)) (d.comparison scope op lhs rhs) := by
  -- a comparison is no conjunction, so only its own rule can have made it a condition
  have hrule : Node.IsCondition (.binary op lhs rhs) ↔ lhs.IsMember ∧
      ∃ v, rhs.Denotes v ∧ (v.isNull = true → op = .eq ∨ op = .ne) := by
    constructor
    · intro h
      cases h with
      | logical hlogical => rcases hlogical with rfl | rfl <;> cases hop
      | comparison _ hl hr hnull => exact ⟨hl, _, hr, hnull⟩
    · rintro ⟨hl, v, hr, hnull⟩
      exact .comparison hop hl hr hnull
  refine Settled.congr ?_ hrule.symm
  unfold comparison
  cases hcolumn : lhs.column? with
  | none => exact settled_obstructed _ _ fun h => Node.not_isMember_iff.mpr hcolumn h.1
  | some c =>
    have hl : lhs.IsMember := Node.isMember_iff.mpr ⟨c, hcolumn⟩
    apply settled_evaluate_bind
    · intro v hv
      by_cases hnull : v.isNull = true
      · simp only [hnull, if_true]
        split
        · exact settled_written _ ⟨hl, v, hv, fun _ => .inl rfl⟩
        · exact settled_written _ ⟨hl, v, hv, fun _ => .inr rfl⟩
        · next heq hne =>
          apply settled_obstructed
          rintro ⟨-, w, hw, honly⟩
          obtain rfl := hv.unique hw
          rcases honly hnull with h | h
          · exact heq h
          · exact hne h
      · simp only [hnull, Bool.false_eq_true, if_false]
        exact (settled_boundAs _ _ ⟨hl, v, hv, fun h => (hnull h).elim⟩).map
    · rintro hnone ⟨-, v, hv, -⟩
      exact hnone v hv

theorem settled_likeness (negated : Bool) (method : Method) (c : ColumnRef × Option String)
    (arg : Node) :
    Settled (∃ s, arg.Denotes (.varchar s)) (d.likeness scope negated method c arg) := by
  unfold likeness
  apply settled_evaluate_bind
  · intro v hv
    split
    · next s => exact (d.settled_pattern method s _ ⟨s, hv⟩).map
    · next hother =>
      apply settled_obstructed
      rintro ⟨s, hs⟩
      exact hother s (hv.unique hs)
  · rintro hnone ⟨s, hs⟩
    exact hnone _ hs

theorem settled_membership (negated : Bool) (receiver arg : Node) :
    Settled (arg.IsMember ∧ ∃ items item, receiver.Denotes (.list items item))
      (d.membership scope negated receiver arg) := by
  unfold membership
  cases hcolumn : arg.column? with
  | none => exact settled_obstructed _ _ fun h => Node.not_isMember_iff.mpr hcolumn h.1
  | some c =>
    have ha : arg.IsMember := Node.isMember_iff.mpr ⟨c, hcolumn⟩
    apply settled_evaluate_bind
    · intro v hv
      split
      · exact settled_written _ ⟨ha, _, _, hv⟩
      · exact (d.settled_forList _ _ ⟨ha, _, _, hv⟩).map
      · next hempty hitems =>
        apply settled_obstructed
        rintro ⟨-, items, item, hlist⟩
        obtain rfl := hv.unique hlist
        cases items with
        | nil => exact hempty item rfl
        | cons w ws => exact hitems w ws item rfl
    · rintro hnone ⟨-, items, item, hlist⟩
      exact hnone _ hlist

theorem settled_callCondition (negated : Bool) (method : Method) (receiver : Node)
    (args : List Node) :
    Settled (Node.IsCondition (.call method receiver args))
      (d.callCondition scope negated method receiver args) := by
  unfold callCondition
  rcases args with - | ⟨arg, - | ⟨second, more⟩⟩
  · exact settled_obstructed _ _ (by rintro ⟨⟩)
  · cases hcolumn : receiver.column? with
    | some c =>
      have hr : receiver.IsMember := Node.isMember_iff.mpr ⟨c, hcolumn⟩
      refine (d.settled_likeness scope negated method c arg).congr ?_
      constructor
      · rintro ⟨s, hs⟩
        exact .likeness hr hs
      · intro h
        cases h with
        | likeness _ hs => exact ⟨_, hs⟩
        | membership hnone => exact (hnone hr).elim
    | none =>
      have hr : ¬ receiver.IsMember := Node.not_isMember_iff.mpr hcolumn
      by_cases hmethod : method = .contains
      · subst hmethod
        simp only [if_true]
        refine (d.settled_membership scope negated receiver arg).congr ?_
        constructor
        · rintro ⟨ha, items, item, hlist⟩
          exact .membership hr hlist ha
        · intro h
          cases h with
          | likeness hcolumn => exact (hr hcolumn).elim
          | membership _ hlist ha => exact ⟨ha, _, _, hlist⟩
      · simp only [hmethod, if_false]
        apply settled_obstructed
        intro h
        cases h with
        | likeness hcolumn => exact hr hcolumn
        | membership => exact hmethod rfl
  · exact settled_obstructed _ _ (by rintro ⟨⟩)

/-- A filter takes conditions.  Under a negation a node is read in another way but is no other
condition. -/
theorem settled_condition (negated : Bool) (n : Node) :
    Settled n.IsCondition (d.condition scope negated n) := by
  induction negated, n using condition.induct with
  | case1 negated op lhs rhs hop ihl ihr =>
    simp only [condition, hop, if_true]
    refine (Settled.map₂ ihl ihr).congr ?_
    have hlogical := BinaryOp.isLogical_iff.mp hop
    constructor
    · rintro ⟨hl, hr⟩
      exact .logical hlogical hl hr
    · intro h
      cases h with
      | logical _ hl hr => exact ⟨hl, hr⟩
      | comparison hcmp => rcases hlogical with rfl | rfl <;> cases hcmp
  | case2 negated op lhs rhs hop hcmp =>
    simp only [condition, hop, hcmp]
    exact (d.settled_comparison scope hcmp lhs rhs).map
  | case3 negated op lhs rhs hop hcmp =>
    simp only [condition, hop, hcmp]
    apply settled_obstructed
    intro h
    cases h with
    | logical hlogical => exact hop (BinaryOp.isLogical_iff.mpr hlogical)
    | comparison h => exact hcmp h
  | case4 negated method receiver args => exact d.settled_callCondition scope _ _ _ _
  | case5 negated n ih =>
    refine ih.congr ⟨.not, ?_⟩
    intro h
    cases h with
    | not hn => exact hn
  | case6 negated n => exact settled_obstructed _ _ (by rintro ⟨⟩)
  | case7 negated n ih =>
    refine ih.congr ⟨.convert, ?_⟩
    intro h
    cases h with
    | convert hn => exact hn
  | case8 negated column tableAlias => exact settled_obstructed _ _ (by rintro ⟨⟩)
  | case9 negated v => exact settled_obstructed _ _ (by rintro ⟨⟩)
  | case10 negated typeName args build => exact settled_obstructed _ _ (by rintro ⟨⟩)

theorem settled_joinCondition (n : Node) :
    Settled n.IsJoinCondition (d.joinCondition scope n) := by
  induction n using joinCondition.induct with
  | case1 op lhs rhs hop ihl ihr =>
    simp only [joinCondition, hop, if_true]
    refine (Settled.map₂ ihl ihr).congr ?_
    have hlogical := BinaryOp.isLogical_iff.mp hop
    constructor
    · rintro ⟨hl, hr⟩
      exact .logical hlogical hl hr
    · intro h
      cases h with
      | logical _ hl hr => exact ⟨hl, hr⟩
      | comparison hcmp => rcases hlogical with rfl | rfl <;> cases hcmp
  | case2 op lhs rhs hop hcmp l r hr hl =>
    simp only [joinCondition, hop, hcmp, hl, hr]
    exact settled_written _
      (.comparison hcmp (Node.isMember_iff.mpr ⟨l, hl⟩) (Node.isMember_iff.mpr ⟨r, hr⟩))
  | case3 op lhs rhs hop hcmp hcolumns =>
    have hno : ¬ Node.IsJoinCondition (.binary op lhs rhs) := by
      intro h
      cases h with
      | logical hlogical => exact hop (BinaryOp.isLogical_iff.mpr hlogical)
      | comparison _ hl hr =>
        obtain ⟨l, hl⟩ := Node.isMember_iff.mp hl
        obtain ⟨r, hr⟩ := Node.isMember_iff.mp hr
        exact hcolumns l r hl hr
    simp only [joinCondition, hop, hcmp, if_true]
    cases hl : lhs.column? with
    | none => exact settled_obstructed _ _ hno
    | some l =>
      cases hr : rhs.column? with
      | none => exact settled_obstructed _ _ hno
      | some r => exact (hcolumns l r hl hr).elim
  | case4 op lhs rhs hop hcmp =>
    simp only [joinCondition, hop, hcmp]
    apply settled_obstructed
    intro h
    cases h with
    | logical hlogical => exact hop (BinaryOp.isLogical_iff.mpr hlogical)
    | comparison h => exact hcmp h
  | case5 n ih =>
    refine ih.congr ⟨.convert, ?_⟩
    intro h
    cases h with
    | convert hn => exact hn
  | case6 n hbinary hconvert =>
    cases n with
    | binary op lhs rhs => exact (hbinary op lhs rhs rfl).elim
    | convert n => exact (hconvert n rfl).elim
    | _ => exact settled_obstructed _ _ (by rintro ⟨⟩)

theorem settled_orderColumn (n : Node) : Settled n.IsMember (d.orderColumn scope n) := by
  unfold orderColumn
  cases hcolumn : n.column? with
  | none => exact settled_obstructed _ _ (Node.not_isMember_iff.mpr hcolumn)
  | some c => exact settled_written _ (Node.isMember_iff.mpr ⟨c, hcolumn⟩)

theorem settled_compile (purpose : Purpose) (n : Node) :
    Settled (purpose.Accepts n) (d.compile scope purpose.clause n) := by
  cases purpose with
  | filter => exact d.settled_condition scope false n
  | deletion => exact d.settled_condition scope false n
  | join => exact d.settled_joinCondition scope n
  | order => exact d.settled_orderColumn scope n

/-- An expression compiles for a purpose exactly where the grammar has it.  Where it does not, the
fault is one of the compiler, never one about counts of values.  Which names are taken already, by
other nodes or by whatever else, decides neither whether it compiles nor the fault. -/
theorem compile_iff_accepts (purpose : Purpose) (n : Node) (names : Names) :
    ((∃ f, (d.compile scope purpose.clause n names).1 = .ok f) ↔ purpose.Accepts n) ∧
      (∀ e, (d.compile scope purpose.clause n names).1 = .error e →
        ∃ kind, e.category = .compile kind) ∧
      ∀ (others : Names) (e : Fault), (d.compile scope purpose.clause n names).1 = .error e ↔
        (d.compile scope purpose.clause n others).1 = .error e := by
  rcases d.settled_compile scope purpose n with ⟨haccepts, hok⟩ | ⟨hrejects, e, kind, hkind, herror⟩
  · obtain ⟨f, after, hrun⟩ := hok names
    rw [hrun]
    refine ⟨⟨fun _ => haccepts, fun _ => ⟨f, rfl⟩⟩, ?_, ?_⟩
    · intro e he
      cases he
    · intro others e
      obtain ⟨g, after', hrun'⟩ := hok others
      rw [hrun']
      constructor
      · intro he
        cases he
      · intro he
        cases he
  · obtain ⟨after, hrun⟩ := herror names
    rw [hrun]
    refine ⟨⟨?_, fun h => (hrejects h).elim⟩, ?_, ?_⟩
    · rintro ⟨f, hf⟩
      cases hf
    · intro fault hfault
      cases hfault
      exact ⟨kind, hkind⟩
    · intro others fault
      obtain ⟨after', hrun'⟩ := herror others
      rw [hrun']

end Dialect

end BoundSql
