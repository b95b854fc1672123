import BoundSql.Proofs.Closed
import BoundSql.Proofs.Outline
import BoundSql.Proofs.Rendering

/-!
# Refinements of a select statement

A select statement is refined by joins, by restrictions and by sort keys.  Each of them belongs to a
clause, and what it puts there is a computation of its own: a text for a join and for a sort key,
whatever names are taken (`Dialect.joinCondition_text`, `Dialect.orderColumn_text`), and a fragment
for a restriction, which goes after the statement (`Restriction.perform_apply`).  A join is written
in front of an open filter clause, which stays as it was (`Fragment.write_before_clause`).
-/

namespace BoundSql

/-! ### Refinements -/

/-- A table to be joined. -/
structure Joining where
  schema : Schema
  tableAlias : String
  condition : Node

/-- What goes into the filter clause. -/
inductive Restriction where
  | filter (n : Node)
  | append (template : String) (args : Args)
  | appendFormat (template : String) (args : List String)
  | appendSubquery (head : String) (sub : Builder)

/-- A column to order by. -/
structure SortKey where
  direction : Direction
  column : Node

/-- What a select statement is refined by. -/
inductive Refinement where
  | join (j : Joining)
  | restrict (r : Restriction)
  | order (k : SortKey)

def Joining.perform (j : Joining) : Building Unit :=
  Building.leftJoin j.schema j.tableAlias j.condition

def Restriction.perform : Restriction → Building Unit
  | filter n => Building.filter n
  | append template args => Building.append template args
  | appendFormat template args => Building.appendFormat template args
  | appendSubquery head sub => Building.appendSubquery head sub.toFragment

def SortKey.perform (k : SortKey) : Building Unit := Building.orderBy k.direction k.column

namespace Refinement

/-- What a refinement does. -/
def perform : Refinement → Building Unit
  | join j => j.perform
  | restrict r => r.perform
  | order k => k.perform

/-- Performs refinements one after the other, those after a failed one included: the result of each
and the statement in the end. -/
def performAll : List Refinement → Builder → List (Except Fault Unit) × Builder
  | [], b => ([], b)
  | op :: ops, b =>
    let (result, b) := op.perform b
    let (results, b) := performAll ops b
    (result :: results, b)

theorem performAll_cons (op : Refinement) (ops : List Refinement) (b : Builder) :
    performAll (op :: ops) b =
      ((op.perform b).1 :: (performAll ops (op.perform b).2).1,
        (performAll ops (op.perform b).2).2) := rfl

/-- The joins among refinements, in order. -/
def joinings : List Refinement → List Joining
  | [] => []
  | .join j :: ops => j :: joinings ops
  | .restrict _ :: ops => joinings ops
  | .order _ :: ops => joinings ops

/-- The restrictions among refinements, in order. -/
def restrictions : List Refinement → List Restriction
  | [] => []
  | .join _ :: ops => restrictions ops
  | .restrict r :: ops => r :: restrictions ops
  | .order _ :: ops => restrictions ops

/-- The sort keys among refinements, in order. -/
def sortKeys : List Refinement → List SortKey
  | [] => []
  | .join _ :: ops => sortKeys ops
  | .restrict _ :: ops => sortKeys ops
  | .order k :: ops => k :: sortKeys ops

end Refinement

/-! ### Clauses -/

/-- No argument of a template opens a filter clause. -/
def Restriction.Closed : Restriction → Prop
  | append _ args => args.Closed
  | _ => True

variable (d : Dialect) (scope : Scope)

/-- The text of a join. -/
def Joining.text (j : Joining) : Except Fault String :=
  (d.joinCondition scope j.condition .none).1.map fun f =>
    " LEFT JOIN " ++ d.tableRef j.schema.table (some j.tableAlias) ++ " ON " ++ d.render f

/-- What a restriction puts into the filter clause. -/
def Restriction.fragment : Restriction → Claiming Fragment
  | filter n => do
    let f ← d.condition scope false n
    return .text " AND (" ++ f ++ .text ")"
  | append template args => do
    let tokens := Template.scan (Text.trim template)
    let resolved ← Claiming.ofExcept
      (Building.resolve (Text.trim template) (Template.placeholders tokens) args)
    let piece ← Building.expand resolved [] tokens
    return .text " " ++ piece
  | appendFormat template args => do
    let text ← Claiming.ofExcept (Template.format (Text.trim template) args)
    return .text (" " ++ text)
  | appendSubquery head sub => fun names =>
    let (f, names) := sub.toFragment.claimNames names
    (.ok (.text (" " ++ Text.trim head ++ " (") ++ f ++ .text ")"), names)

/-- What restrictions put into the filter clause, one after the other. -/
def Restriction.fragments : List Restriction → Names → List (Except Fault Fragment)
  | [], _ => []
  | r :: rs, names =>
    let (result, names) := r.fragment d scope names
    result :: Restriction.fragments rs names

/-- The text of a sort key. -/
def SortKey.text (k : SortKey) : Except Fault String :=
  (d.orderColumn scope k.column .none).1.map fun f => d.render f ++ " " ++ k.direction.sql

/-- The select list and the table of a statement. -/
def selection (s : Schema) (tableAlias : String) : String :=
  "SELECT " ++ ", ".intercalate (s.columns.map fun c =>
    d.columnRef ⟨true, tableAlias⟩ none (s.ref c)) ++ " FROM " ++
      d.tableRef s.table (some tableAlias)

/-- The ordering by some keys. -/
def ordering : List String → String
  | [] => ""
  | keys => "ORDER BY " ++ ", ".intercalate keys

/-! ### Each refinement on its own -/

theorem Dialect.render_text (s : String) : d.render (.text s) = s := by
  show Fragment.render d.marker ⟨Token.compact [.text s], []⟩ = s
  rw [Fragment.render_compact, Fragment.render_cons]
  exact String.append_empty

/-- The condition of a join is a text, whatever names are taken. -/
theorem Dialect.joinCondition_text (n : Node) :
    ∃ r : Except Fault String, ∀ names, d.joinCondition scope n names = (r.map .text, names) := by
  induction n using Dialect.joinCondition.induct with
  | case1 op lhs rhs hop ihl ihr =>
    obtain ⟨l, hl⟩ := ihl
    obtain ⟨r, hr⟩ := ihr
    simp only [Dialect.joinCondition, hop, if_true]
    cases l with
    | error e =>
      refine ⟨.error e, fun names => ?_⟩
      rw [bind_apply, hl]
      rfl
    | ok l =>
      cases r with
      | error e =>
        refine ⟨.error e, fun names => ?_⟩
        rw [bind_apply, hl]
        show (d.joinCondition scope rhs >>= _) names = _
        rw [bind_apply, hr]
        rfl
      | ok r =>
        refine ⟨.ok ("(" ++ l ++ (" " ++ op.sql ++ " ") ++ r ++ ")"), fun names => ?_⟩
        rw [bind_apply, hl]
        show (d.joinCondition scope rhs >>= _) names = _
        rw [bind_apply, hr]
        show (Except.ok (Dialect.joined op (.text l) (.text r)), names) = _
        unfold Dialect.joined
        rw [← Fragment.text_append, ← Fragment.text_append, ← Fragment.text_append,
          ← Fragment.text_append]
        rfl
  | case2 op lhs rhs hop hcmp l r hr hl =>
    simp only [Dialect.joinCondition, hop, hcmp, hl, hr]
    exact ⟨.ok _, fun _ => rfl⟩
  | case3 op lhs rhs hop hcmp hcolumns =>
    simp only [Dialect.joinCondition, hop, hcmp, if_true]
    cases hl : lhs.column? with
    | none => exact ⟨.error _, fun _ => rfl⟩
    | some l =>
      cases hr : rhs.column? with
      | none => exact ⟨.error _, fun _ => rfl⟩
      | some r => exact (hcolumns l r hl hr).elim
  | case4 op lhs rhs hop hcmp =>
    simp only [Dialect.joinCondition, hop, hcmp]
    exact ⟨.error _, fun _ => rfl⟩
  | case5 n ih => exact ih
  | case6 n hbinary hconvert =>
    have hn : d.joinCondition scope n = obstructed n.kind .joinNeedsColumns := by
      cases n with
      | binary op lhs rhs => exact (hbinary op lhs rhs rfl).elim
      | convert n => exact (hconvert n rfl).elim
      | _ => rfl
    rw [hn]
    exact ⟨.error _, fun _ => rfl⟩

theorem Dialect.orderColumn_text (n : Node) :
    ∃ r : Except Fault String, ∀ names, d.orderColumn scope n names = (r.map .text, names) := by
  unfold Dialect.orderColumn
  cases n.column? with
  | some c => exact ⟨.ok _, fun _ => rfl⟩
  | none => exact ⟨.error _, fun _ => rfl⟩

/-- The statement with what a computation made put after it, if it made anything. -/
def Builder.pushed (b : Builder) : Except Fault Fragment × Names → Except Fault Unit × Builder
  | (.ok f, names) => (.ok (), { b with body := b.body ++ f, names })
  | (.error e, names) => (.error e, { b with names })

theorem Building.claiming_bind_push (c : Builder → Claiming Fragment) (g : Fragment → Fragment)
    (b : Builder) :
    (Building.claiming c >>= fun f => Building.push (g f)) b =
      b.pushed ((c b >>= fun f => pure (g f)) b.names) := by
  rw [bind_apply, bind_apply]
  simp only [Building.claiming]
  rcases c b b.names with ⟨r, names⟩
  cases r with
  | error e => rfl
  | ok f => rfl

/-- A restriction puts its fragment after the statement. -/
theorem Restriction.perform_apply (r : Restriction) (b : Builder) :
    r.perform b = b.pushed (r.fragment b.dialect b.scope b.names) := by
  cases r with
  | filter n =>
    simp only [perform, Building.filter, Building.compile, fragment]
    rw [Building.claiming_bind_push]
    rfl
  | append template args =>
    simp only [perform, Building.append, fragment]
    rw [bind_apply, bind_apply]
    simp only [Building.ofExcept, Claiming.ofExcept]
    cases Building.resolve (Text.trim template)
      (Template.placeholders (Template.scan (Text.trim template))) args with
    | error e => rfl
    | ok resolved =>
      dsimp only
      rw [Building.claiming_bind_push]
  | appendFormat template args =>
    simp only [perform, Building.appendFormat, fragment]
    rw [bind_apply, bind_apply]
    simp only [Building.ofExcept, Claiming.ofExcept]
    cases Template.format (Text.trim template) args with
    | error e => rfl
    | ok text => rfl
  | appendSubquery head sub =>
    simp only [perform, Building.appendSubquery, fragment]
    rw [Building.claiming_bind_push]
    rfl

/-- What a restriction puts into the filter clause opens none. -/
theorem Restriction.closed_fragment (r : Restriction) (hr : r.Closed) :
    Claiming.Closed (r.fragment d scope) := by
  cases r with
  | filter n =>
    apply (d.composed_condition scope false n).closed.bind
    intro f hf
    exact Claiming.closed_pure
      (((Fragment.closed_text _).append hf).append (Fragment.closed_text _))
  | append template args =>
    apply Claiming.closed_ofExcept_bind
    intro resolved hresolved
    have hargs := Building.closed_of_resolve hr hresolved
    apply (Building.closed_expand resolved hargs [] (by simp) _ (Template.closed_scan _)).bind
    intro piece hpiece
    exact Claiming.closed_pure ((Fragment.closed_text _).append hpiece)
  | appendFormat template args =>
    apply Claiming.closed_ofExcept_bind
    intro text _
    exact Claiming.closed_pure (Fragment.closed_text _)
  | appendSubquery head sub =>
    intro names f hf
    cases hf
    have hsub : sub.toFragment.Closed := (Fragment.closed_sealed _).trim
    exact ((Fragment.closed_text _).append (hsub.rename _)).append (Fragment.closed_text _)

/-- What is written in front of the last opening of a filter clause leaves the rest as it is. -/
theorem Fragment.write_before_opening (head on : String) (front : List Token)
    {clause : List Token} (hclause : .sentinel ∉ clause) (bindings : List Binding) :
    let f : Fragment := ⟨Token.compact (front ++ .sentinel :: clause), bindings⟩
    (f.takeFilterClause.2 ++ .text head ++ .text on ++ .sentinel).pushTokens
        (f.takeFilterClause.1.getD []) =
      ⟨Token.compact (front ++ .text (head ++ on) :: .sentinel :: clause), bindings⟩ := by
  intro f
  have hcompact : .sentinel ∉ Token.compact clause := by
    rw [Token.sentinel_mem_compact]
    exact hclause
  -- the opening is the last one, so what is cut off is the whole clause
  have hcut : f.takeFilterClause =
      (some (Token.compact clause), ⟨Token.compact front, bindings⟩) := by
    have hsplit : f.tokens = _ := Token.compact_append_sentinel front clause
    unfold takeFilterClause
    rw [hsplit, cutFilter?_append_sentinel hcompact]
  have htokens : Token.append (Token.append (Token.append (Token.append
      (Token.compact front) (Token.compact [.text head])) (Token.compact [.text on]))
        [.sentinel]) (Token.compact clause) =
      Token.compact (front ++ .text (head ++ on) :: .sentinel :: clause) := by
    rw [Token.append_compact, Token.compact_append_compact, Token.append_compact,
      Token.compact_append_compact, Token.append_compact, Token.append_compact,
      Token.compact_append_compact]
    simp only [List.append_assoc, List.cons_append, List.nil_append]
    apply Token.compact_append_congr
    simp only [Token.compact, Token.consText_consText]
  have hbindings : bindings ++ [] ++ [] ++ [] = bindings := by simp
  rw [hcut]
  show Fragment.mk (Token.append (Token.append (Token.append (Token.append _ _) _) _) _) _ = _
  exact congrArg₂ Fragment.mk htokens hbindings

/-- A join writes its text in front of the last opening of a filter clause. -/
theorem Joining.perform_apply (j : Joining) (b : Builder) {front clause : List Token}
    (hclause : .sentinel ∉ clause)
    (hb : b.body.tokens = Token.compact (front ++ .sentinel :: clause)) :
    j.perform b =
      match j.text b.dialect b.scope with
      | .ok t => (.ok (), { b with
        body := ⟨Token.compact (front ++ .text t :: .sentinel :: clause), b.body.bindings⟩ })
      | .error e => (.error e, b) := by
  obtain ⟨r, hr⟩ := b.dialect.joinCondition_text b.scope j.condition
  have htext : j.text b.dialect b.scope = r.map fun on =>
      " LEFT JOIN " ++ b.dialect.tableRef j.schema.table (some j.tableAlias) ++ " ON " ++ on := by
    unfold Joining.text
    rw [hr]
    cases r with
    | error e => rfl
    | ok on => simp only [Except.map, Dialect.render_text]
  have hcompile : ∀ names, b.dialect.compile b.scope .join j.condition names =
      (r.map .text, names) := hr
  unfold Joining.perform Building.leftJoin Building.compile
  rw [bind_apply, htext]
  simp only [Building.claiming, hcompile]
  cases r with
  | error e => rfl
  | ok on =>
    have hbody : b.body = ⟨Token.compact (front ++ .sentinel :: clause), b.body.bindings⟩ :=
      congrArg (Fragment.mk · b.body.bindings) hb
    have hwritten := Fragment.write_before_opening
      (" LEFT JOIN " ++ b.dialect.tableRef j.schema.table (some j.tableAlias) ++ " ON ") on
      front hclause b.body.bindings
    dsimp only at hwritten
    rw [← hbody] at hwritten
    exact congrArg (fun body => (Except.ok (), { b with body })) hwritten

end BoundSql
