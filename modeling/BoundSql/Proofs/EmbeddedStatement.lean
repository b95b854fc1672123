import BoundSql.Proofs.Assembly
import BoundSql.Proofs.FailedOperation

/-!
# Statements put into another one

A statement in parentheses stays what it is, whatever is done to the statement around it: joins are
written in front of the last opening of a filter clause, and everything else goes behind
(`Extension.extended_perform`).  What was put in opens no filter clause, so that the last opening is
never inside (`Builder.Extended.containing`).  Its markers were renamed to names that were free, and
no later binding takes one of them, so they go on standing for the same values.

A builder closes the filter clauses of its statement when it is put into another one.  A fragment is
put in as it is.  That of a select statement which was built, and not closed, still opens its filter
clause, and a later join is written there, between the parentheses
(`Extension.join_inside_parentheses`).
-/

namespace BoundSql

/-! ### Steps -/

/-- What can be put into a statement: another one, or a fragment of one. -/
inductive Subquery where
  | statement (b : Builder)
  | fragment (f : Fragment)

namespace Subquery

def toFragment : Subquery → Fragment
  | statement b => b.toFragment
  | fragment f => f

/-- Nothing that is put in opens a filter clause.  Those of a statement are closed for that. -/
def Closed : Subquery → Prop
  | statement _ => True
  | fragment f => f.Closed

theorem Closed.toFragment {sub : Subquery} (hsub : sub.Closed) : sub.toFragment.Closed := by
  cases sub with
  | statement b => exact (Fragment.closed_sealed _).trim
  | fragment f => exact hsub

/-- What stands in front of the statement that is put in. -/
def opening (head : String) : String := " " ++ Text.trim head ++ " ("

/-- The statement in its parentheses, its parameters renamed. -/
def inParentheses (head : String) (sub : Subquery) (names : Names) : List Token :=
  .text (opening head) :: (sub.toFragment.claimNames names).1.tokens ++ [.text ")"]

/-- What is put behind the statement. -/
def embedded (head : String) (sub : Subquery) (names : Names) : Fragment :=
  .text (opening head) ++ (sub.toFragment.claimNames names).1 ++ .text ")"

theorem embedded_tokens (head : String) (sub : Subquery) (names : Names) :
    (embedded head sub names).tokens = Token.compact (inParentheses head sub names) := by
  show Token.append (Token.append (Token.compact [.text (opening head)])
    (sub.toFragment.claimNames names).1.tokens) (Token.compact [.text ")"]) = _
  rw [Token.append_compact, Token.append_compact, Token.compact_append_compact]
  rfl

theorem embedded_bindings (head : String) (sub : Subquery) (names : Names) :
    (embedded head sub names).bindings = (sub.toFragment.claimNames names).1.bindings := by
  show [] ++ (sub.toFragment.claimNames names).1.bindings ++ [] = _
  rw [List.append_nil, List.nil_append]

theorem Closed.inParentheses {sub : Subquery} (hsub : sub.Closed) (head : String)
    (names : Names) : .sentinel ∉ inParentheses head sub names := by
  have hinner : .sentinel ∉ (sub.toFragment.claimNames names).1.tokens :=
    hsub.toFragment.rename _
  simp [Subquery.inParentheses, hinner]

end Subquery

/-- What a select statement is extended by. -/
inductive Extension where
  | refine (op : Refinement)
  | embed (head : String) (sub : Subquery)

namespace Extension

/-- What an extension does. -/
def perform : Extension → Building Unit
  | refine op => op.perform
  | embed head sub => Building.appendSubquery head sub.toFragment

/-- Performs extensions one after the other, those after a failed one included. -/
def performAll : List Extension → Builder → List (Except Fault Unit) × Builder
  | [], b => ([], b)
  | op :: ops, b =>
    let (result, b) := op.perform b
    let (results, b) := performAll ops b
    (result :: results, b)

theorem performAll_cons (op : Extension) (ops : List Extension) (b : Builder) :
    performAll (op :: ops) b =
      ((op.perform b).1 :: (performAll ops (op.perform b).2).1,
        (performAll ops (op.perform b).2).2) := rfl

/-- What every extension keeps is kept by all of them. -/
theorem performAll_keeps {P : Builder → Prop} (hstep : ∀ op b, P b → P (perform op b).2)
    (ops : List Extension) {b : Builder} (hb : P b) : P (performAll ops b).2 := by
  induction ops generalizing b with
  | nil => exact hb
  | cons op ops ih => exact ih (hstep op b hb)

theorem perform_embed (head : String) (sub : Subquery) (b : Builder) :
    perform (embed head sub) b = (.ok (), { b with
      body := b.body ++ sub.embedded head b.names
      names := (sub.toFragment.claimNames b.names).2 }) := rfl

/-- The refinements among extensions, in order. -/
def refinements : List Extension → List Refinement
  | [] => []
  | .refine op :: ops => op :: refinements ops
  | .embed _ _ :: ops => refinements ops

/-- The extension opens no filter clause. -/
def Closed : Extension → Prop
  | refine (.restrict r) => r.Closed
  | refine _ => True
  | embed _ sub => sub.Closed

end Extension

/-! ### What a step does -/

namespace Builder

variable {d : Dialect} {s : Schema} {tableAlias : String} {b b' : Builder} {ts : List Token}

/-- What an extension makes of a statement in which a filter clause is open.  It takes names or adds
a sort key, puts something behind the statement, or writes a text in front of the last opening. -/
inductive Extended (b : Builder) : Builder → Prop where
  | kept {names : Names} {orderBy : String} (hgrow : b.names.taken ⊆ names.taken) :
      Extended b { b with names, orderBy }
  | behind {f : Fragment} {names : Names} (hgrow : b.names.taken ⊆ names.taken)
      (hfree : ∀ x ∈ f.bindings, x.name ∉ b.names.taken) :
      Extended b { b with body := b.body ++ f, names }
  | before {t : String} {tokens : List Token}
      (h : ∀ front clause, .sentinel ∉ clause →
        b.body.tokens = Token.compact (front ++ .sentinel :: clause) →
          tokens = Token.compact (front ++ .text t :: .sentinel :: clause)) :
      Extended b { b with body := ⟨tokens, b.body.bindings⟩ }

theorem Extended.adds (h : b.Extended b') : b.Adds b' := by
  cases h with
  | kept hgrow => exact ⟨hgrow, [], (List.append_nil _).symm, by simp⟩
  | behind hgrow hfree => exact ⟨hgrow, _, rfl, hfree⟩
  | before h => exact ⟨List.Subset.refl _, [], (List.append_nil _).symm, by simp⟩

/-- A select statement that has the tokens in it, one after the other, and a filter clause open. -/
structure Containing (d : Dialect) (s : Schema) (tableAlias : String) (ts : List Token)
    (b : Builder) : Prop where
  dialect : b.dialect = d
  scope : b.scope = ⟨true, tableAlias⟩
  opened : .sentinel ∈ b.body.tokens
  around : ∃ front back, b.body.tokens =
    Token.compact (.text (" " ++ selection d s tableAlias) :: front ++ ts ++ back)

/-- The opening of a filter clause that comes last. -/
theorem exists_last_opening (h : .sentinel ∈ ts) :
    ∃ front clause, ts = front ++ .sentinel :: clause ∧ .sentinel ∉ clause := by
  obtain ⟨clause, front, hsplit, hclause⟩ :=
    List.eq_append_cons_of_mem (List.mem_reverse.mpr h)
  refine ⟨front.reverse, clause.reverse, ?_, by simpa using hclause⟩
  have hts := congrArg List.reverse hsplit
  simpa using hts

/-- Tokens that are compact, and open a filter clause, are split at the last opening. -/
theorem last_opening_of_compact (hopened : .sentinel ∈ b.body.tokens)
    (hcompact : b.body.tokens = Token.compact ts) :
    ∃ front clause, .sentinel ∉ clause ∧
      b.body.tokens = Token.compact (front ++ .sentinel :: clause) := by
  obtain ⟨front, clause, hsplit, hclause⟩ := exists_last_opening hopened
  refine ⟨front, clause, hclause, ?_⟩
  rw [← hsplit, hcompact, Token.compact_compact]

theorem Containing.last_opening (hb : b.Containing d s tableAlias ts) :
    ∃ front clause, .sentinel ∉ clause ∧
      b.body.tokens = Token.compact (front ++ .sentinel :: clause) := by
  obtain ⟨front, back, haround⟩ := hb.around
  exact last_opening_of_compact hb.opened haround

/-- The text a statement starts with stays, and so do tokens that open no filter clause. -/
theorem Extended.around (h : b.Extended b') {start : String} {front back : List Token}
    (hts : .sentinel ∉ ts) (hopened : .sentinel ∈ b.body.tokens)
    (haround : b.body.tokens = Token.compact (.text start :: front ++ ts ++ back)) :
    .sentinel ∈ b'.body.tokens ∧ ∃ front back,
      b'.body.tokens = Token.compact (.text start :: front ++ ts ++ back) := by
  cases h with
  | kept hgrow => exact ⟨hopened, front, back, haround⟩
  | @behind f names hgrow hfree =>
    refine ⟨Token.sentinel_mem_append.mpr (.inl hopened), front, back ++ f.tokens, ?_⟩
    show Token.append b.body.tokens f.tokens = _
    rw [haround, Token.append_compact]
    simp only [List.append_assoc]
  | @before t tokens h =>
    -- the last opening stands behind the tokens or else in front of them
    by_cases hback : .sentinel ∈ back
    · obtain ⟨middle, clause, rfl, hclause⟩ := exists_last_opening hback
      have htokens := h (.text start :: front ++ ts ++ middle) clause hclause
        (by rw [haround]; simp only [List.append_assoc])
      refine ⟨?_, front, middle ++ .text t :: .sentinel :: clause, ?_⟩
      · show .sentinel ∈ tokens
        rw [htokens, Token.sentinel_mem_compact]
        simp
      · show tokens = _
        rw [htokens]
        simp only [List.append_assoc]
    · have hfront : .sentinel ∈ front := by
        rw [haround, Token.sentinel_mem_compact] at hopened
        simpa [hts, hback] using hopened
      obtain ⟨first, clause, rfl, hclause⟩ := exists_last_opening hfront
      have htokens := h (.text start :: first) (clause ++ ts ++ back)
        (by simp [hclause, hts, hback])
        (by rw [haround]; simp only [List.append_assoc, List.cons_append])
      refine ⟨?_, first ++ .text t :: .sentinel :: clause, back, ?_⟩
      · show .sentinel ∈ tokens
        rw [htokens, Token.sentinel_mem_compact]
        simp
      · show tokens = _
        rw [htokens]
        simp only [List.append_assoc, List.cons_append]

theorem Extended.dialect (h : b.Extended b') : b'.dialect = b.dialect := by cases h <;> rfl

theorem Extended.scope (h : b.Extended b') : b'.scope = b.scope := by cases h <;> rfl

/-- What is in the statement and opens no filter clause stays in it. -/
theorem Extended.containing (h : b.Extended b') (hts : .sentinel ∉ ts)
    (hb : b.Containing d s tableAlias ts) : b'.Containing d s tableAlias ts := by
  obtain ⟨front, back, haround⟩ := hb.around
  obtain ⟨hopened, hkept⟩ := h.around hts hb.opened haround
  exact ⟨h.dialect.trans hb.dialect, h.scope.trans hb.scope, hopened, hkept⟩

end Builder

open Builder

namespace Extension

variable {d : Dialect} {s : Schema} {tableAlias : String} {b : Builder} {ts : List Token}

/-- A join is written in front of the last opening of a filter clause. -/
theorem extended_join (j : Joining) (hopening : ∃ front clause, .sentinel ∉ clause ∧
      b.body.tokens = Token.compact (front ++ .sentinel :: clause)) :
    b.Extended (j.perform b).2 := by
  obtain ⟨front, clause, hclause, htokens⟩ := hopening
  have hrun := j.perform_apply b hclause htokens
  cases htext : j.text b.dialect b.scope with
  | error e =>
    rw [htext] at hrun
    rw [hrun]
    exact .kept (List.Subset.refl _)
  | ok t =>
    rw [htext] at hrun
    rw [hrun]
    refine .before (t := t) ?_
    intro others clause' hclause' htokens'
    -- wherever the statement is split, the join does the same
    have hother := j.perform_apply b hclause' htokens'
    rw [htext, hrun] at hother
    exact congrArg (·.2.body.tokens) hother

theorem extended_restriction (r : Restriction) : b.Extended (r.perform b).2 := by
  obtain ⟨hgrow, hfresh⟩ := r.fresh_fragment b.dialect b.scope b.names
  rw [r.perform_apply]
  rcases hrun : r.fragment b.dialect b.scope b.names with ⟨result, names⟩
  rw [hrun] at hgrow hfresh
  cases result with
  | error e => exact .kept hgrow
  | ok f => exact .behind hgrow (hfresh f rfl)

theorem extended_sortKey (k : SortKey) : b.Extended (k.perform b).2 := by
  unfold SortKey.perform Building.orderBy
  rw [get_bind_apply, Building.columnText_bind_apply]
  split
  · exact .kept (List.Subset.refl _)
  · exact .kept (List.Subset.refl _)

theorem extended_perform (op : Extension) (hopening : ∃ front clause, .sentinel ∉ clause ∧
      b.body.tokens = Token.compact (front ++ .sentinel :: clause)) :
    b.Extended (op.perform b).2 := by
  cases op with
  | refine op =>
    cases op with
    | join j => exact extended_join j hopening
    | restrict r => exact extended_restriction r
    | order k => exact extended_sortKey k
  | embed head sub =>
    rw [perform_embed]
    refine .behind (sub.toFragment.taken_subset_claimNames b.names) ?_
    intro x hx
    rw [Subquery.embedded_bindings] at hx
    exact Fragment.fresh_claimNames x hx

theorem containing_select (d : Dialect) (s : Schema) (tableAlias : String) :
    ((Builder.new d).select s tableAlias).Containing d s tableAlias [] := by
  rw [← Parts.builder_empty]
  have hselection : " " ++ selection d s tableAlias ++ String.join [] =
      " " ++ selection d s tableAlias := String.append_empty
  refine ⟨rfl, rfl, ?_, [.sentinel], [], ?_⟩
  · show .sentinel ∈ Token.compact (_ :: [.sentinel])
    rw [Token.sentinel_mem_compact]
    simp
  · show Token.compact (.text (" " ++ selection d s tableAlias ++ String.join []) ::
      [.sentinel]) = _
    rw [hselection]
    rfl

/-- What is put into the statement is contained in it. -/
theorem containing_embed (head : String) (sub : Subquery)
    (hb : b.Containing d s tableAlias []) :
    (perform (.embed head sub) b).2.Containing d s tableAlias
      (sub.inParentheses head b.names) := by
  obtain ⟨hdialect, hscope, hopened, front, back, haround⟩ := hb
  rw [perform_embed]
  refine ⟨hdialect, hscope, Token.sentinel_mem_append.mpr (.inl hopened), front ++ back, [], ?_⟩
  show Token.append b.body.tokens (sub.embedded head b.names).tokens = _
  rw [Subquery.embedded_tokens, haround, Token.append_compact, Token.compact_append_compact]
  simp only [List.append_assoc, List.append_nil, List.cons_append]

/-- Whatever follows, the statement contains what it contained and binds what it bound. -/
theorem containing_performAll (ops : List Extension) (hts : .sentinel ∉ ts)
    (hb : b.Containing d s tableAlias ts) :
    (performAll ops b).2.Containing d s tableAlias ts ∧ b.Adds (performAll ops b).2 := by
  refine performAll_keeps (P := fun b' => b'.Containing d s tableAlias ts ∧ b.Adds b') ?_ ops
    ⟨hb, .refl b⟩
  rintro op b' ⟨hb', hadds⟩
  have hstep := extended_perform op hb'.last_opening
  exact ⟨hstep.containing hts hb', hadds.trans hstep.adds⟩

/-! ### Statements without another opening -/

/-- The joins among extensions, in order. -/
def joinings (ops : List Extension) : List Joining := Refinement.joinings (refinements ops)

theorem joinings_append (ops others : List Extension) :
    joinings (ops ++ others) = joinings ops ++ joinings others := by
  induction ops with
  | nil => rfl
  | cons op ops ih =>
    cases op with
    | refine op =>
      cases op with
      | join j => exact congrArg (j :: ·) ih
      | _ => exact ih
    | embed head sub => exact ih

end Extension

namespace Parts

/-- More parts: some joins behind those there were, and something more in the filter clause. -/
structure Grown (joins : List String) (p p' : Parts) : Prop where
  joins : p'.joins = p.joins ++ joins
  clause : p.clause <+: p'.clause

/-- The parts with a statement put in. -/
def embed (head : String) (sub : Subquery) (p : Parts) : Parts :=
  { p with clause := p.clause ++ [sub.embedded head p.names],
           names := (sub.toFragment.claimNames p.names).2 }

theorem Closed.embed {p : Parts} (hp : p.Closed) (head : String) {sub : Subquery}
    (hsub : sub.Closed) : (p.embed head sub).Closed := by
  intro f hf
  rcases List.mem_append.mp hf with hold | hnew
  · exact hp f hold
  · obtain rfl := List.mem_singleton.mp hnew
    unfold Fragment.Closed
    rw [Subquery.embedded_tokens, Token.sentinel_mem_compact]
    exact hsub.inParentheses head p.names

variable (d : Dialect) (s : Schema) (tableAlias : String)

theorem perform_embed (head : String) (sub : Subquery) (p : Parts) :
    (Extension.perform (.embed head sub) (p.builder d s tableAlias)).2 =
      (p.embed head sub).builder d s tableAlias :=
  builder_append d s tableAlias p _ _

/-- An extension that opens no filter clause goes to the parts. -/
theorem perform_extension (op : Extension) (hop : op.Closed) {p : Parts} (hp : p.Closed) :
    ∃ p' : Parts, (op.perform (p.builder d s tableAlias)).2 = p'.builder d s tableAlias ∧
      p'.Closed ∧
      p.Grown (successes ((Extension.joinings [op]).map (·.text d ⟨true, tableAlias⟩))) p' := by
  cases op with
  | refine op =>
    refine ⟨p.refine d ⟨true, tableAlias⟩ op, (perform_builder d s tableAlias op hp).2, ?_, ?_⟩
    · apply hp.refine
      intro r hr
      cases op with
      | restrict r' =>
        obtain rfl := List.mem_singleton.mp hr
        exact hop
      | _ => cases hr
    · cases op with
      | join j =>
        have hjoins : successes ((Extension.joinings [.refine (.join j)]).map
            (·.text d ⟨true, tableAlias⟩)) = (j.text d ⟨true, tableAlias⟩).toOption.toList := by
          exact (successes_cons _ []).trans (List.append_nil _)
        rw [hjoins]
        exact ⟨rfl, List.prefix_refl _⟩
      | restrict r => exact ⟨(List.append_nil _).symm, List.prefix_append _ _⟩
      | order k => exact ⟨(List.append_nil _).symm, List.prefix_refl _⟩
  | embed head sub =>
    exact ⟨p.embed head sub, perform_embed d s tableAlias head sub p, hp.embed head hop,
      (List.append_nil _).symm, List.prefix_append _ _⟩

theorem performAll_extensions (ops : List Extension) (hops : ∀ op ∈ ops, op.Closed) {p : Parts}
    (hp : p.Closed) :
    ∃ p' : Parts,
      (Extension.performAll ops (p.builder d s tableAlias)).2 = p'.builder d s tableAlias ∧
      p'.Closed ∧
      p.Grown (successes ((Extension.joinings ops).map (·.text d ⟨true, tableAlias⟩))) p' := by
  induction ops generalizing p with
  | nil => exact ⟨p, rfl, hp, (List.append_nil _).symm, List.prefix_refl _⟩
  | cons op ops ih =>
    obtain ⟨middle, hstep, hmiddle, hfirst⟩ :=
      perform_extension d s tableAlias op (hops op List.mem_cons_self) hp
    obtain ⟨p', hrest, hp', hsecond⟩ :=
      ih (fun op hop => hops op (List.mem_cons_of_mem _ hop)) hmiddle
    have hjoinings : Extension.joinings (op :: ops) =
        Extension.joinings [op] ++ Extension.joinings ops := Extension.joinings_append [op] ops
    refine ⟨p', ?_, hp', ?_, hfirst.clause.trans hsecond.clause⟩
    · rw [Extension.performAll_cons, hstep]
      exact hrest
    · rw [hsecond.joins, hfirst.joins, hjoinings, List.map_append, List.append_assoc]
      simp only [successes, List.filterMap_append]

/-- Where nothing else opens a filter clause, there is one in the end.  It stands behind the joins,
and what was put in stands in it. -/
theorem performAll_embed (before after : List Extension) (head : String) (sub : Subquery)
    (hops : ∀ op ∈ before ++ after, op.Closed) (hsub : sub.Closed) :
    let b := (Extension.performAll before ((Builder.new d).select s tableAlias)).2
    let joins := successes ((Extension.joinings (before ++ after)).map
      (·.text d ⟨true, tableAlias⟩))
    ∃ earlier later, .sentinel ∉ earlier ∧ .sentinel ∉ later ∧
      (Extension.performAll (.embed head sub :: after) b).2.body.tokens =
        Token.compact (.text (" " ++ selection d s tableAlias ++ String.join joins) :: .sentinel ::
          (earlier ++ sub.inParentheses head b.names ++ later)) := by
  intro b joins
  have hempty : Parts.empty.Closed := by
    intro f hf
    cases hf
  obtain ⟨first, hbefore, hfirst, hjoins⟩ := performAll_extensions d s tableAlias before
    (fun op hop => hops op (List.mem_append_left _ hop)) hempty
  obtain ⟨last, hafter, hlast, hmore⟩ := performAll_extensions d s tableAlias after
    (fun op hop => hops op (List.mem_append_right _ hop)) (hfirst.embed head hsub)
  rw [Parts.builder_empty] at hbefore
  have hb : b = first.builder d s tableAlias := hbefore
  obtain ⟨rest, hclause⟩ := hmore.clause
  have hlastJoins : last.joins = joins := by
    rw [hmore.joins]
    show first.joins ++ _ = _
    rw [hjoins.joins]
    show [] ++ _ ++ _ = _
    rw [List.nil_append]
    simp only [joins, Extension.joinings_append, List.map_append, successes,
      List.filterMap_append]
  refine ⟨first.clauseTokens, rest.flatMap (·.tokens), hfirst.clauseTokens, ?_, ?_⟩
  · intro h
    apply hlast.clauseTokens
    rw [clauseTokens, ← hclause, List.flatMap_append]
    exact List.mem_append_right _ h
  · have htokens : last.clauseTokens = first.clauseTokens ++
        (Token.compact (sub.inParentheses head first.names) ++ rest.flatMap (·.tokens)) := by
      rw [clauseTokens, ← hclause]
      simp only [embed, List.flatMap_append, List.flatMap_singleton, Subquery.embedded_tokens,
        List.append_assoc, clauseTokens]
    rw [Extension.performAll_cons, hb, perform_embed, hafter]
    show Token.compact (.text (" " ++ selection d s tableAlias ++ String.join last.joins) ::
      .sentinel :: last.clauseTokens) = _
    rw [hlastJoins, htokens, List.append_assoc]
    exact Token.compact_append_congr (Token.compact_append_congr
      (Token.compact_compact_append _ _) first.clauseTokens) [_, .sentinel]

end Parts

/-! ### The text of what was put in -/

/-- Renamed, a fragment is rendered like before, with its new names in the markers. -/
theorem Fragment.render_claimNames (f : Fragment) (names : Names)
    (marker : String → Value → String) (bindings : List Binding)
    (h : ∀ name ∈ Token.paramNames f.tokens,
      marker (f.claimedName names name) (valueOf bindings (f.claimedName names name)) =
        marker (f.claimedName names name) (valueOf f.bindings name)) :
    render marker ⟨(f.claimNames names).1.tokens, bindings⟩ =
      f.render fun name value => marker (f.claimedName names name) value := by
  have htokens : ∀ t ∈ f.tokens,
      renderToken marker bindings (t.relabel (f.claimedName names)) =
        renderToken (fun name value => marker (f.claimedName names name) value) f.bindings t := by
    intro t ht
    cases t with
    | param name => exact h name (Token.mem_paramNames.mpr ht)
    | _ => rfl
  have hrenamed : (f.claimNames names).1.tokens =
      f.tokens.map (Token.relabel (f.claimedName names)) :=
    congrArg Fragment.tokens (rename_eq_relabel f _)
  unfold render
  rw [hrenamed]
  show String.join ((f.tokens.map _).map _) = _
  rw [List.map_map]
  exact congrArg String.join (List.map_congr_left htokens)

namespace Extension

variable (d : Dialect)

/-- A parameter of the statement put in goes on standing for its value, under its new name. -/
theorem valueOf_embedded (head : String) (sub : Subquery) {b b' : Builder}
    (h : (perform (.embed head sub) b).2.Adds b') {name : String}
    (hname : name ∈ sub.toFragment.names) :
    Fragment.valueOf b'.body.bindings (sub.toFragment.claimedName b.names name) =
      Fragment.valueOf sub.toFragment.bindings name := by
  have htaken := (Fragment.claimedName_fresh b.names hname).2
  rw [h.valueOf_eq htaken, perform_embed]
  show Fragment.valueOf (b.body.bindings ++ (sub.embedded head b.names).bindings) _ = _
  rw [Subquery.embedded_bindings, Fragment.valueOf_append_claimNames hname]

/-- Every marker of the statement put in names a value of it, or markers do not show what they stand
for. -/
def Shown (sub : Subquery) : Prop :=
  d.typedMarkers = false ∨ Token.paramNames sub.toFragment.tokens ⊆ sub.toFragment.names

/-- Between the parentheses stands what the statement put in is rendered to, whatever followed. -/
theorem render_inParentheses (head : String) (sub : Subquery) (hsub : Shown d sub) {b b' : Builder}
    (h : (perform (.embed head sub) b).2.Adds b') :
    d.render ⟨sub.inParentheses head b.names, b'.body.bindings⟩ =
      Subquery.opening head ++
        sub.toFragment.render (fun name value =>
          d.marker (sub.toFragment.claimedName b.names name) value) ++ ")" := by
  have hinner : d.render ⟨(sub.toFragment.claimNames b.names).1.tokens, b'.body.bindings⟩ =
      sub.toFragment.render fun name value =>
        d.marker (sub.toFragment.claimedName b.names name) value := by
    apply Fragment.render_claimNames
    intro name hname
    rcases hsub with huntyped | hmarked
    · simp only [Dialect.marker, huntyped]
      rfl
    · rw [valueOf_embedded head sub h (hmarked hname)]
  have hclose : Fragment.render d.marker ⟨[.text ")"], b'.body.bindings⟩ = ")" := by
    rw [Fragment.render_cons]
    exact String.append_empty
  show Fragment.render d.marker ⟨.text (Subquery.opening head) ::
    (sub.toFragment.claimNames b.names).1.tokens ++ [.text ")"], b'.body.bindings⟩ = _
  rw [Fragment.render_append, Fragment.render_cons, hclose]
  exact congrArg (Subquery.opening head ++ · ++ ")") hinner

/-- A statement that was put in stays what it is, whatever is done to the statement around it before
and afterwards, as long as it opens no filter clause.  Between the parentheses stand its tokens with
its parameters renamed, and so its text; the parameters stand for the values they stood for.  A
join is written in front of the last opening of a filter clause.  Where nothing else opens one, this
is the opening behind the selection and its joins, and what was put in stands behind it. -/
theorem embedded_kept (s : Schema) (tableAlias : String) (before after : List Extension)
    (head : String) (sub : Subquery) (hsub : sub.Closed) :
    let scope : Scope := ⟨true, tableAlias⟩
    let b := (performAll before ((Builder.new d).select s tableAlias)).2
    let outcome := perform (.embed head sub) b
    let final := (performAll after outcome.2).2
    let inner := sub.toFragment
    let renamed := inner.claimedName b.names
    let texts := fun ts : List Token => d.render ⟨ts, final.body.bindings⟩
    outcome.1 = .ok () ∧
      (∀ name ∈ inner.names, renamed name ∉ b.names.taken ∧
        Fragment.valueOf final.body.bindings (renamed name) =
          Fragment.valueOf inner.bindings name) ∧
      (∃ front back,
        final.body.tokens = Token.compact (.text (" " ++ selection d s tableAlias) ::
          front ++ sub.inParentheses head b.names ++ back) ∧
        (Shown d sub → ∃ blanks, Text.allBlank blanks = true ∧
          final.sql ++ blanks = selection d s tableAlias ++ texts front ++
            (Subquery.opening head ++
              inner.render (fun name value => d.marker (renamed name) value) ++ ")") ++
            texts back ++ (if final.orderBy = "" then "" else " " ++ final.orderBy))) ∧
      (∃ front clause, .sentinel ∉ clause ∧
        final.body.tokens = Token.compact (front ++ .sentinel :: clause) ∧
        ∀ j t, Joining.text d scope j = .ok t →
          j.perform final = (.ok (), { final with body :=
            ⟨Token.compact (front ++ .text t :: .sentinel :: clause), final.body.bindings⟩ })) ∧
      ((∀ op ∈ before ++ after, op.Closed) →
        let joins := Parts.successes ((joinings (before ++ after)).map (·.text d scope))
        ∃ earlier later, .sentinel ∉ earlier ∧ .sentinel ∉ later ∧
          final.body.tokens = Token.compact
            (.text (" " ++ selection d s tableAlias ++ String.join joins) :: .sentinel ::
              (earlier ++ sub.inParentheses head b.names ++ later))) := by
  intro scope b outcome final inner renamed texts
  have hnone : .sentinel ∉ ([] : List Token) := List.not_mem_nil
  have hstart := containing_select d s tableAlias
  have hb : b.Containing d s tableAlias [] := (containing_performAll before hnone hstart).1
  have hembed := containing_embed head sub hb
  obtain ⟨hfinal, hadds⟩ : final.Containing d s tableAlias (sub.inParentheses head b.names) ∧
      outcome.2.Adds final :=
    containing_performAll after (hsub.inParentheses head b.names) hembed
  refine ⟨rfl, ?_, ?_, ?_, ?_⟩
  · intro name hname
    exact ⟨(Fragment.claimedName_fresh b.names hname).1, valueOf_embedded head sub hadds hname⟩
  · obtain ⟨front, back, haround⟩ := hfinal.around
    refine ⟨front, back, haround, ?_⟩
    intro hshown
    obtain ⟨cs, hselection⟩ := selection_eq_cons d s tableAlias
    have hS : Text.isBlank 'S' = false := rfl
    rw [hselection] at haround
    obtain ⟨blanks, hblanks, hsql⟩ := final.sql_append_blanks hS haround
    refine ⟨blanks, hblanks, ?_⟩
    have htexts : ∀ ts us, texts (ts ++ us) = texts ts ++ texts us :=
      Fragment.render_append d.marker final.body.bindings
    have hmiddle : texts (sub.inParentheses head b.names) = _ :=
      render_inParentheses d head sub hshown hadds
    rw [hsql, ← hselection, hfinal.dialect, ← hmiddle]
    show _ ++ texts (front ++ sub.inParentheses head b.names ++ back) ++ _ = _
    rw [htexts, htexts]
    simp only [String.append_assoc]
  · obtain ⟨front, clause, hclause, htokens⟩ := hfinal.last_opening
    refine ⟨front, clause, hclause, htokens, ?_⟩
    intro j t ht
    have htext : j.text final.dialect final.scope = .ok t := by
      rw [hfinal.dialect, hfinal.scope]
      exact ht
    have hperform := j.perform_apply final hclause htokens
    rw [htext] at hperform
    exact hperform
  · intro hops
    exact Parts.performAll_embed d s tableAlias before after head sub hops hsub

/-- Customers of some name. -/
def named (name : String) : Builder :=
  (Refinement.performAll [.restrict (.filter (.binary .eq
    (.member ⟨"name", "name", "customer"⟩ none) (.constant (.varchar name))))]
      ((Builder.new .sqlite).select .customer "k")).2

/-- Orders with some note. -/
def noted : Extension :=
  .refine (.restrict (.append "AND t.note = :name" (.positional [.value (.varchar "gift")])))

/-- The fragment of a statement that was closed is put in, between a template that has taken the
name of its parameter and a join. -/
theorem embedded_kept_named :
    let sub : Subquery := .fragment (named "Ada").toFragment
    let b := (performAll [noted] ((Builder.new .sqlite).select .order "t")).2
    let final := (performAll [.embed "AND t.customer_name IN" sub,
      .refine (.join Refinement.customers)] b).2
    sub.Closed ∧ (∀ op ∈ [noted, .refine (.join Refinement.customers)], op.Closed) ∧
      Fragment.valueOf final.body.bindings "name1" = .varchar "Ada" ∧
      (∃ front back blanks, Text.allBlank blanks = true ∧ final.sql ++ blanks =
        selection .sqlite .order "t" ++ front ++ (" AND t.customer_name IN (" ++
          "SELECT k.\x60id\x60, k.\x60name\x60, k.\x60vip\x60 FROM \x60customer\x60 k" ++
          " WHERE 1=1 AND (k.\x60name\x60 = :name1))") ++ back) ∧
      ∃ earlier later, .sentinel ∉ earlier ∧ .sentinel ∉ later ∧
        final.body.tokens = Token.compact (.text (" " ++ selection .sqlite .order "t" ++
          " LEFT JOIN \x60customer\x60 c ON t.\x60customer_name\x60 = c.\x60name\x60") ::
            .sentinel :: (earlier ++ sub.inParentheses "AND t.customer_name IN" b.names ++
              later)) := by
  intro sub b final
  have hsub : sub.Closed := (Fragment.closed_sealed _).trim
  have hops : ∀ op ∈ [noted, .refine (.join Refinement.customers)], op.Closed := by
    intro op hop
    rcases List.mem_cons.mp hop with rfl | hop
    · intro arg harg
      rcases List.mem_singleton.mp harg with rfl
      exact trivial
    · rcases List.mem_singleton.mp hop with rfl
      exact trivial
  obtain ⟨-, hvalues, ⟨front, back, -, hsql⟩, -, hopening⟩ :=
    embedded_kept .sqlite .order "t" [noted] [.refine (.join Refinement.customers)]
      "AND t.customer_name IN" sub hsub
  obtain ⟨blanks, hblanks, hsql⟩ := hsql (.inl rfl)
  refine ⟨hsub, hops, ?_, ?_, ?_⟩
  · have hname : "name" ∈ sub.toFragment.names := by decide +kernel
    have hrenamed : sub.toFragment.claimedName b.names "name" = "name1" := by decide +kernel
    have hvalue := (hvalues "name" hname).2
    rw [hrenamed] at hvalue
    exact hvalue
  · have hinside : Subquery.opening "AND t.customer_name IN" ++
        sub.toFragment.render (fun name value =>
          Dialect.sqlite.marker (sub.toFragment.claimedName b.names name) value) ++ ")" =
        " AND t.customer_name IN (" ++
          "SELECT k.\x60id\x60, k.\x60name\x60, k.\x60vip\x60 FROM \x60customer\x60 k" ++
          " WHERE 1=1 AND (k.\x60name\x60 = :name1))" := by decide +kernel
    rw [hinside] at hsql
    exact ⟨_, _, blanks, hblanks, hsql.trans String.append_assoc⟩
  · obtain ⟨earlier, later, hearlier, hlater, htokens⟩ := hopening hops
    have hjoins : String.join (Parts.successes ((joinings ([noted] ++
        [.refine (.join Refinement.customers)])).map (·.text .sqlite ⟨true, "t"⟩))) =
          " LEFT JOIN \x60customer\x60 c ON t.\x60customer_name\x60 = c.\x60name\x60" := by
      decide +kernel
    rw [hjoins] at htokens
    exact ⟨earlier, later, hearlier, hlater, htokens⟩

/-- The fragment that was built of a select statement opens the filter clause of that statement, so
that a join of the statement around it is written between the parentheses. -/
theorem join_inside_parentheses :
    ¬ ∀ (d : Dialect) (s s' : Schema) (tableAlias tableAlias' head : String)
        (ops : List Refinement) (j : Joining) (t : String),
      let f := (Refinement.performAll ops ((Builder.new d).select s' tableAlias')).2.build
      let b := (Builder.new d).select s tableAlias
      let (results, final) := performAll [.embed head (.fragment f), .refine (.join j)] b
      results.all (·.isOk) = true → j.text d ⟨true, tableAlias⟩ = .ok t →
        final.sql = selection d s tableAlias ++ t ++ " WHERE 1=1" ++ Subquery.opening head ++
          f.render (fun name value => d.marker (f.claimedName b.names name) value) ++ ")" := by
  intro hclaim
  let on : Joining := ⟨.auditLog, "c", .binary .eq
    (.member ⟨"message", "message", "audit_log"⟩ none)
    (.member ⟨"message", "message", "audit_log"⟩ (some "c"))⟩
  have hkept := hclaim .sqlite .auditLog .auditLog "t" "k" "AND t.message IN" [] on _
    (by decide +kernel) rfl
  revert hkept
  decide +kernel

end Extension

end BoundSql
