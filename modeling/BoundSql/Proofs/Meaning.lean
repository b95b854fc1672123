import BoundSql.Proofs.Binding
import BoundSql.Proofs.Condition

/-!
# Compiled conditions mean what their expressions mean

What an expression compiles to in a filter is the text of a condition, and the truth value of that
condition in a row, its markers read as the values bound to them, is what the expression means
(`Dialect.compile_keeps_meaning`).  A negation that is written into an operator, cancelled by
another one or put around a condition makes no difference.
-/

namespace BoundSql

/-! ### Fragments that say something -/

namespace Fragment

/-- The names of the bindings stand for their values. -/
def ReadBy (f : Fragment) (value : String → Value) : Prop :=
  ∀ b ∈ f.bindings, value b.name = b.value

/-- The fragment is the text of a condition that has in every row the truth value meant. -/
def Expresses (f : Fragment) (meaning : Interpretation → (String → Value) → Option Truth) : Prop :=
  ∃ p : Condition, f.tokens = p.tokens ∧
    ∀ I row value, f.ReadBy value → meaning I row = some (p.eval I row value)

theorem Bound.readBy_valueOf {f : Fragment} (hf : f.Bound []) :
    f.ReadBy (valueOf f.bindings) := fun _ hb => valueOf_of_nodup hf.nodup hb

/-- What two fragments say in the parentheses of an operator. -/
theorem tokens_joined {op : BinaryOp} {l r : Fragment} {p q : Condition}
    (hl : l.tokens = p.tokens) (hr : r.tokens = q.tokens) :
    (Dialect.joined op l r).tokens =
      Token.compact (.text "(" :: p.pieces ++ .text (" " ++ op.sql ++ " ") :: q.pieces ++
        [.text ")"]) := by
  simp only [Dialect.joined, append_tokens, text_tokens, hl, hr, Condition.tokens,
    Token.append_compact, Token.compact_append_compact]
  simp

theorem ReadBy.of_append {f g : Fragment} {bindings : List Binding} {value : String → Value}
    (hbindings : bindings = f.bindings ++ g.bindings)
    (h : ∀ b ∈ bindings, value b.name = b.value) : f.ReadBy value ∧ g.ReadBy value := by
  subst hbindings
  exact ⟨fun b hb => h b (List.mem_append_left _ hb), fun b hb => h b (List.mem_append_right _ hb)⟩

theorem Expresses.negatedIf {f : Fragment}
    {meaning : Interpretation → (String → Value) → Option Truth} (hf : f.Expresses meaning)
    (negated : Bool) :
    (Dialect.negatedIf negated f).Expresses fun I row =>
      (meaning I row).map (Truth.negatedIf negated) := by
  obtain ⟨p, htokens, hmeaning⟩ := hf
  cases negated with
  | false =>
    refine ⟨p, htokens, ?_⟩
    intro I row value hread
    show (meaning I row).map (Truth.negatedIf false) = _
    rw [hmeaning I row value hread]
    rfl
  | true =>
    refine ⟨.negation p, ?_, ?_⟩
    · simp only [Dialect.negatedIf, if_true, append_tokens, text_tokens, htokens,
        Condition.tokens, Token.append_compact, Token.compact_append_compact]
      rfl
    · intro I row value hread
      have hsame : f.ReadBy value := by
        intro b hb
        exact hread b (by simpa [Dialect.negatedIf] using hb)
      show (meaning I row).map (Truth.negatedIf true) = _
      rw [hmeaning I row value hsame]
      rfl

end Fragment

/-! ### The items of a list -/

namespace WrappedValue

/-- What stands for a list that is not empty. -/
theorem of_splice_forList (d : Dialect) {name : String} {v : Value} {vs : List Value}
    {names after : Names} {f : Fragment}
    (h : (d.forList (v :: vs)).splice name names = (.ok f, after)) :
    ∃ first rest, f.bindings = first :: rest ∧ first.value = v ∧
      rest.map Binding.value = vs ∧
      f.tokens = Token.compact (.text "(" :: .param first.name ::
        (rest.map Binding.name).flatMap (fun marker => [Token.text ",", .param marker]) ++
          [.text ")"]) := by
  obtain ⟨bindings, -, hvalues, hrun⟩ := splice_forList d name (v :: vs) names
  rw [hrun] at h
  cases h
  obtain ⟨first, rest, rfl, hfirst, hrest⟩ := List.map_eq_cons_iff.mp hvalues
  refine ⟨first, rest, rfl, hfirst, hrest, ?_⟩
  simp only [List.map_cons, Token.intersperse_cons, List.flatMap_map, List.cons_append]

end WrappedValue

/-! ### Expressions -/

namespace Dialect

variable (d : Dialect) (scope : Scope) {names after : Names} {f : Fragment}

theorem expresses_comparison {op : BinaryOp} (hop : op.isComparison = true) {lhs rhs : Node}
    (h : d.comparison scope op lhs rhs names = (.ok f, after)) :
    f.Expresses fun I row =>
      lhs.comparisonMeaning? I (row ∘ d.columnText scope) ⟨op, hop⟩ rhs := by
  unfold comparison at h
  cases hc : lhs.column? with
  | none =>
    simp only [hc] at h
    cases h
  | some c =>
    simp only [hc] at h
    obtain ⟨v, hv, h⟩ := Claiming.of_ofExcept_bind_ok h
    cases hnull : v.isNull with
    | true =>
      simp only [hnull, if_true] at h
      cases op with
      | eq =>
        obtain rfl := Claiming.ok_inj h
        refine ⟨.isNull false (d.columnText scope c), rfl, ?_⟩
        intro I row value _
        simp [Node.comparisonMeaning?, hc, hv, hnull, Condition.eval]
      | ne =>
        obtain rfl := Claiming.ok_inj h
        refine ⟨.isNull true (d.columnText scope c), rfl, ?_⟩
        intro I row value _
        simp [Node.comparisonMeaning?, hc, hv, hnull, Condition.eval]
      | _ => cases h
    | false =>
      simp only [hnull, Bool.false_eq_true, if_false] at h
      obtain ⟨param, middle, hparam, h⟩ := of_bind_ok h
      rw [boundAs_apply] at hparam
      obtain rfl := Claiming.ok_inj hparam
      obtain rfl := Claiming.ok_inj h
      refine ⟨.compare (d.columnText scope c) ⟨op, hop⟩ (names.claim c.1.field).1, ?_, ?_⟩
      · simp [Condition.tokens, Condition.pieces, Token.append_compact]
      · intro I row value hread
        have hvalue : value (names.claim c.1.field).1 = v := hread ⟨_, v⟩ (by simp)
        simp [Node.comparisonMeaning?, hc, hv, hnull, Condition.eval, hvalue]

/-- What stands for a pattern is one marker. -/
theorem splice_pattern {method : Method} {s name : String} {piece : Fragment}
    (h : (d.pattern method s).splice name names = (.ok piece, after)) :
    ∃ marker, piece = .param marker (d.pattern method s).value := by
  refine ⟨(names.claim name).1, ?_⟩
  cases method <;> exact (Claiming.ok_inj h).symm

theorem expresses_likeness {negated : Bool} {method : Method} {receiver arg : Node}
    {c : ColumnRef × Option String} (hc : receiver.column? = some c)
    (h : d.likeness scope negated method c arg names = (.ok f, after)) :
    f.Expresses fun I row =>
      (receiver.callMeaning? I d (row ∘ d.columnText scope) method arg).map
        (Truth.negatedIf negated) := by
  unfold likeness at h
  obtain ⟨v, hv, h⟩ := Claiming.of_ofExcept_bind_ok h
  split at h
  · next s =>
    obtain ⟨piece, middle, hpiece, h⟩ := of_bind_ok h
    obtain ⟨marker, rfl⟩ := d.splice_pattern hpiece
    obtain rfl := Claiming.ok_inj h
    refine ⟨.like negated (d.columnText scope c) marker, ?_, ?_⟩
    · simp [Condition.tokens, Condition.pieces, Token.append_compact]
    · intro I row value hread
      have hvalue : value marker = (d.pattern method s).value := hread ⟨marker, _⟩ (by simp)
      simp [Node.callMeaning?, hc, hv, Condition.eval, hvalue]
  · cases h

theorem expresses_membership {negated : Bool} {receiver arg : Node}
    (hreceiver : receiver.column? = none)
    (h : d.membership scope negated receiver arg names = (.ok f, after)) :
    f.Expresses fun I row =>
      (receiver.callMeaning? I d (row ∘ d.columnText scope) .contains arg).map
        (Truth.negatedIf negated) := by
  unfold membership at h
  cases hc : arg.column? with
  | none =>
    simp only [hc] at h
    cases h
  | some c =>
    simp only [hc] at h
    obtain ⟨v, hv, h⟩ := Claiming.of_ofExcept_bind_ok h
    split at h
    · obtain rfl := Claiming.ok_inj h
      refine ⟨.fact negated, by cases negated <;> rfl, ?_⟩
      intro I row value _
      cases negated <;> simp [Node.callMeaning?, hreceiver, hc, hv, Condition.eval, Truth.any,
        Truth.ofBool, Truth.not]
    · next v vs item =>
      obtain ⟨list, middle, hlist, h⟩ := of_bind_ok h
      obtain rfl := Claiming.ok_inj h
      obtain ⟨first, rest, hbindings, rfl, rfl, htokens⟩ := WrappedValue.of_splice_forList d hlist
      refine ⟨.among negated (d.columnText scope c) first.name (rest.map Binding.name), ?_, ?_⟩
      · simp only [Fragment.append_tokens, Fragment.text_tokens, htokens, Token.append_compact,
          Token.compact_append_compact]
        rfl
      · intro I row value hread
        have hvalues : ∀ b ∈ first :: rest, value b.name = b.value := by
          intro b hb
          exact hread b (by simpa [hbindings] using hb)
        have hitems : ((first :: rest).map Binding.name).map value =
            (first :: rest).map Binding.value := by
          rw [List.map_map]
          exact List.map_congr_left hvalues
        have hamong : Condition.isAmong I (row (d.columnText scope c))
              ((first.name :: rest.map Binding.name).map value) =
            .any (((first :: rest).map Binding.value).map
              (I.compare ⟨.eq, rfl⟩ (row (d.columnText scope c)))) := by
          rw [← hitems]
          exact Condition.isAmong_eq_any _ _ _
        simp only [Condition.eval, hamong]
        simp [Node.callMeaning?, hreceiver, hc, hv]
    · cases h

theorem expresses_callCondition {negated : Bool} {method : Method} {receiver : Node}
    {args : List Node}
    (h : d.callCondition scope negated method receiver args names = (.ok f, after)) :
    f.Expresses fun I row =>
      ((Node.call method receiver args).meaning? I d (row ∘ d.columnText scope)).map
        (Truth.negatedIf negated) := by
  unfold callCondition at h
  split at h
  · next arg =>
    cases hc : receiver.column? with
    | some c =>
      simp only [hc] at h
      exact d.expresses_likeness scope hc h
    | none =>
      simp only [hc] at h
      by_cases hmethod : method = .contains
      · subst hmethod
        exact d.expresses_membership scope hc h
      · rw [if_neg hmethod] at h
        cases h
  · cases h

theorem expresses_joined {op : BinaryOp} (hop : op.isLogical = true) {lhs rhs : Node}
    {l r : Fragment}
    (hl : l.Expresses fun I row => lhs.meaning? I d (row ∘ d.columnText scope))
    (hr : r.Expresses fun I row => rhs.meaning? I d (row ∘ d.columnText scope)) :
    (joined op l r).Expresses fun I row =>
      (Node.binary op lhs rhs).meaning? I d (row ∘ d.columnText scope) := by
  obtain ⟨p, hp, hpmeaning⟩ := hl
  obtain ⟨q, hq, hqmeaning⟩ := hr
  have hparts : ∀ value, (joined op l r).ReadBy value → l.ReadBy value ∧ r.ReadBy value :=
    fun value hread => Fragment.ReadBy.of_append (joined_bindings op l r) hread
  cases op with
  | and =>
    refine ⟨.both p q, Fragment.tokens_joined hp hq, ?_⟩
    intro I row value hread
    obtain ⟨hreadl, hreadr⟩ := hparts value hread
    simp [Node.meaning?, hpmeaning I row value hreadl, hqmeaning I row value hreadr,
      Condition.eval]
  | or =>
    refine ⟨.either p q, Fragment.tokens_joined hp hq, ?_⟩
    intro I row value hread
    obtain ⟨hreadl, hreadr⟩ := hparts value hread
    simp [Node.meaning?, hpmeaning I row value hreadl, hqmeaning I row value hreadr,
      Condition.eval]
  | _ => cases hop

theorem meaning?_of_comparison (I : Interpretation) (row : ColumnRef × Option String → Value)
    {op : BinaryOp} (hop : op.isComparison = true) (lhs rhs : Node) :
    (Node.binary op lhs rhs).meaning? I d row = lhs.comparisonMeaning? I row ⟨op, hop⟩ rhs := by
  cases op with
  | and => cases hop
  | or => cases hop
  | _ => simp [Node.meaning?, hop]

theorem expresses_condition {negated : Bool} {n : Node}
    (h : d.condition scope negated n names = (.ok f, after)) :
    f.Expresses fun I row =>
      (n.meaning? I d (row ∘ d.columnText scope)).map (Truth.negatedIf negated) := by
  induction negated, n using condition.induct generalizing names after f with
  | case1 negated op lhs rhs hop ihl ihr =>
    simp only [condition, hop, if_true] at h
    obtain ⟨l, middle, hl, h⟩ := of_bind_ok h
    obtain ⟨r, final, hr, h⟩ := of_bind_ok h
    obtain rfl := Claiming.ok_inj h
    have hleft : l.Expresses fun I row => lhs.meaning? I d (row ∘ d.columnText scope) := by
      simpa using ihl hl
    have hright : r.Expresses fun I row => rhs.meaning? I d (row ∘ d.columnText scope) := by
      simpa using ihr hr
    exact (d.expresses_joined scope hop hleft hright).negatedIf negated
  | case2 negated op lhs rhs hop hcmp =>
    simp only [condition, hop, hcmp] at h
    obtain ⟨l, middle, hl, h⟩ := of_bind_ok h
    obtain rfl := Claiming.ok_inj h
    have hf := (d.expresses_comparison scope hcmp hl).negatedIf negated
    simpa only [d.meaning?_of_comparison _ _ hcmp] using hf
  | case3 negated op lhs rhs hop hcmp =>
    simp only [condition, hop, hcmp] at h
    cases h
  | case4 negated method receiver args => exact d.expresses_callCondition scope h
  | case5 negated n ih =>
    simp only [Node.meaning?, Truth.map_negatedIf_not]
    exact ih h
  | case7 negated n ih => exact ih h
  | _ => cases h

/-- What an expression compiles to in a filter binds its markers and is the text of a condition, and
that condition has in every row the truth value that the expression means, however values are
compared and patterns matched. -/
theorem compile_keeps_meaning (n : Node) (names after : Names) (f : Fragment)
    (h : d.compile scope .filter n names = (.ok f, after)) :
    f.Bound [] ∧
      ∃ p : Condition, f.tokens = p.tokens ∧
        ∀ I row, n.meaning? I d (row ∘ d.columnText scope) =
          some (p.eval I row (Fragment.valueOf f.bindings)) := by
  have hbound : f.Bound [] := by
    have hsound : Claiming.Sound [] (d.compile scope .filter n) := d.sound_compile scope .filter n
    obtain ⟨-, hclaimed⟩ := hsound names
    rw [h] at hclaimed
    exact (hclaimed f rfl).toBound
  have hcondition : d.condition scope false n names = (.ok f, after) := h
  obtain ⟨p, htokens, hmeaning⟩ := d.expresses_condition scope hcondition
  refine ⟨hbound, p, htokens, ?_⟩
  intro I row
  have hvalue := hmeaning I row (Fragment.valueOf f.bindings) hbound.readBy_valueOf
  simpa only [Truth.map_negatedIf_false] using hvalue

/-- Neither among two identifiers nor, unless negated twice, without a note. -/
def notedElsewhere : Node :=
  .binary .and
    (.unary .not (.call .contains (.constant (.list [.varchar "a", .varchar "b"] .varchar))
      [.convert (.member ⟨"id", "id", "orders"⟩ none)]))
    (.unary .not (.unary .not (.unary .not
      (.binary .eq (.member ⟨"note", "note", "orders"⟩ (some "n")) (.constant .unknown)))))

theorem compile_keeps_meaning_notedElsewhere :
    ∃ f after, sqlite.compile .standard .filter notedElsewhere ⟨["inParam1"], []⟩ = (.ok f, after) ∧
      sqlite.render f = "(t.`id` NOT IN (:inParam0,:inParam11) AND NOT (n.`note` IS NULL))" ∧
      f.Bound [] ∧
      ∃ p : Condition, f.tokens = p.tokens ∧
        ∀ I row, notedElsewhere.meaning? I sqlite (row ∘ sqlite.columnText .standard) =
          some (p.eval I row (Fragment.valueOf f.bindings)) := by
  have htext : (sqlite.compile .standard .filter notedElsewhere ⟨["inParam1"], []⟩).1.toOption.map
      sqlite.render =
        some "(t.`id` NOT IN (:inParam0,:inParam11) AND NOT (n.`note` IS NULL))" := by
    decide +kernel
  rcases hrun : sqlite.compile .standard .filter notedElsewhere ⟨["inParam1"], []⟩ with ⟨r, after⟩
  rw [hrun] at htext
  cases r with
  | error e => cases htext
  | ok f =>
    refine ⟨f, after, rfl, Option.some.inj htext, ?_⟩
    exact sqlite.compile_keeps_meaning .standard notedElsewhere _ after f hrun

end Dialect

end BoundSql
