import BoundSql.Proofs.Refinement
import BoundSql.Schema.Samples

/-!
# Statements assembled from their clauses

A select statement is refined by joins, by restrictions and by sort keys, in any order.  A join has
to be written before the filter clause, which is cut off and put behind it again, while the names
that restrictions bind are claimed in between.  Still the statement is the one that its joins,
its restrictions and its sort keys make, each taken in their own order
(`Refinement.performAll_assembled`), as long as no argument of a template opens a filter clause of
its own.

The invariant is that the statement is `Parts.builder` of the parts written so far: a refinement
changes the parts of its own clause only (`Refinement.perform_builder`).
-/

namespace BoundSql

variable (d : Dialect) (scope : Scope)

/-! ### The parts of a statement -/

/-- What a select statement consists of behind its selection. -/
structure Parts where
  /-- The texts of the joins. -/
  joins : List String
  /-- What is in the filter clause. -/
  clause : List Fragment
  names : Names
  /-- The texts of the sort keys. -/
  keys : List String

namespace Parts

/-- Nothing but the selection. -/
def empty : Parts := ⟨[], [], .none, []⟩

/-- The tokens of the filter clause behind its opening. -/
def clauseTokens (p : Parts) : List Token := p.clause.flatMap (·.tokens)

/-- The statement that consists of the parts. -/
def builder (s : Schema) (tableAlias : String) (p : Parts) : Builder where
  dialect := d
  body := ⟨Token.compact (.text (" " ++ selection d s tableAlias ++ String.join p.joins) ::
    .sentinel :: p.clauseTokens), p.clause.flatMap (·.bindings)⟩
  names := p.names
  orderBy := ordering p.keys
  tableAlias := tableAlias
  qualify := true

/-- No part opens another filter clause. -/
def Closed (p : Parts) : Prop := ∀ f ∈ p.clause, f.Closed

theorem Closed.clauseTokens {p : Parts} (hp : p.Closed) : .sentinel ∉ p.clauseTokens := by
  intro h
  obtain ⟨f, hf, hmem⟩ := List.mem_flatMap.mp h
  exact hp f hf hmem

/-- The parts with those of a refinement, if it has any. -/
def refine (scope : Scope) (p : Parts) : Refinement → Parts
  | .join j => { p with joins := p.joins ++ (j.text d scope).toOption.toList }
  | .restrict r =>
    let (result, names) := r.fragment d scope p.names
    { p with clause := p.clause ++ result.toOption.toList, names }
  | .order k => { p with keys := p.keys ++ (k.text d scope).toOption.toList }

variable (s : Schema) (tableAlias : String)

theorem builder_empty : empty.builder d s tableAlias = (Builder.new d).select s tableAlias := by
  have hselection : " " ++ selection d s tableAlias ++ String.join [] =
      " SELECT " ++ ", ".intercalate (s.columns.map fun c =>
        d.columnRef ⟨true, tableAlias⟩ none (s.ref c)) ++ " FROM " ++
          d.tableRef s.table (some tableAlias) := by
    unfold selection
    rw [String.join_nil, String.append_empty]
    simp only [← String.append_assoc]
    rfl
  have htokens : ∀ u, Token.compact [.text u, .sentinel] =
      Token.append (Token.append [] (Token.compact [.text u])) [.sentinel] := by
    intro u
    have hfirst : Token.append [] (Token.compact [.text u]) = Token.compact [.text u] :=
      Token.compact_compact _
    rw [hfirst]
    exact (Token.append_compact [.text u] [.sentinel]).symm
  show Builder.mk d ⟨Token.compact [.text (" " ++ selection d s tableAlias ++ String.join []),
    .sentinel], []⟩ .none "" tableAlias true = _
  rw [hselection, htokens]
  rfl

/-- A join is written behind the joins before it, in front of the filter clause. -/
theorem perform_join (j : Joining) {p : Parts} (hp : p.Closed) :
    (j.perform (p.builder d s tableAlias)).1.isOk = (j.text d ⟨true, tableAlias⟩).isOk ∧
      (j.perform (p.builder d s tableAlias)).2 =
        (p.refine d ⟨true, tableAlias⟩ (.join j)).builder d s tableAlias := by
  let front := " " ++ selection d s tableAlias ++ String.join p.joins
  have hsplit : (p.builder d s tableAlias).body.tokens =
      Token.compact ([.text front] ++ .sentinel :: p.clauseTokens) := rfl
  have hperform : j.perform (p.builder d s tableAlias) = _ :=
    j.perform_apply (p.builder d s tableAlias) hp.clauseTokens hsplit
  have hscope : j.text (p.builder d s tableAlias).dialect (p.builder d s tableAlias).scope =
      j.text d ⟨true, tableAlias⟩ := rfl
  rw [hperform, hscope]
  simp only [refine]
  cases j.text d ⟨true, tableAlias⟩ with
  | error e =>
    refine ⟨rfl, ?_⟩
    simp [Except.toOption]
  | ok t =>
    refine ⟨rfl, ?_⟩
    have hjoins : " " ++ selection d s tableAlias ++ String.join (p.joins ++ [t]) = front ++ t := by
      rw [String.join_append, String.join_cons, String.join_nil, String.append_empty,
        ← String.append_assoc]
    have htokens : Token.compact ([.text front] ++ .text t :: .sentinel :: p.clauseTokens) =
        Token.compact (.text (front ++ t) :: .sentinel :: p.clauseTokens) := by
      simp only [List.singleton_append, Token.compact, Token.consText_consText]
    simp only [Except.toOption, Option.toList_some, builder, hjoins]
    exact congrArg (fun ts => Builder.mk d ⟨ts, p.clause.flatMap (·.bindings)⟩ p.names
      (ordering p.keys) tableAlias true) htokens

/-- What is put after the statement goes to the end of the filter clause. -/
theorem builder_append (p : Parts) (f : Fragment) (names : Names) :
    { p.builder d s tableAlias with body := (p.builder d s tableAlias).body ++ f, names } =
      { p with clause := p.clause ++ [f], names }.builder d s tableAlias := by
  have htokens : Token.append (Token.compact (.text (" " ++ selection d s tableAlias ++
      String.join p.joins) :: .sentinel :: p.clauseTokens)) f.tokens =
        Token.compact (.text (" " ++ selection d s tableAlias ++ String.join p.joins) ::
          .sentinel :: (p.clause ++ [f]).flatMap (·.tokens)) := by
    rw [Token.append_compact, List.flatMap_append, List.flatMap_singleton]
    rfl
  have hbindings : p.clause.flatMap (·.bindings) ++ f.bindings =
      (p.clause ++ [f]).flatMap (·.bindings) := by
    rw [List.flatMap_append, List.flatMap_singleton]
  exact congrArg₂ (fun tokens bindings => Builder.mk d ⟨tokens, bindings⟩ names
    (ordering p.keys) tableAlias true) htokens hbindings

/-- A restriction goes to the end of the filter clause. -/
theorem perform_restriction (r : Restriction) (p : Parts) :
    (r.perform (p.builder d s tableAlias)).1.isOk =
        (r.fragment d ⟨true, tableAlias⟩ p.names).1.isOk ∧
      (r.perform (p.builder d s tableAlias)).2 =
        (p.refine d ⟨true, tableAlias⟩ (.restrict r)).builder d s tableAlias := by
  have hscope : (p.builder d s tableAlias).scope = ⟨true, tableAlias⟩ := rfl
  have hdialect : (p.builder d s tableAlias).dialect = d := rfl
  have hnames : (p.builder d s tableAlias).names = p.names := rfl
  rw [Restriction.perform_apply, hscope, hdialect, hnames]
  simp only [refine]
  rcases r.fragment d ⟨true, tableAlias⟩ p.names with ⟨result, names⟩
  cases result with
  | error e =>
    refine ⟨rfl, ?_⟩
    simp [Builder.pushed, Except.toOption, builder, clauseTokens]
  | ok f => exact ⟨rfl, builder_append d s tableAlias p f names⟩

theorem ordering_append (keys : List String) (key : String) :
    ordering (keys ++ [key]) =
      (if ordering keys = "" then "ORDER BY " else ordering keys ++ ", ") ++ key := by
  cases keys with
  | nil => rfl
  | cons first keys =>
    have hne : ordering (first :: keys) ≠ "" := by
      intro h
      have hlength := congrArg String.length h
      simp [ordering] at hlength
    have hkeys : ", ".intercalate (first :: keys ++ [key]) =
        ", ".intercalate (first :: keys) ++ ", " ++ key := by
      rw [String.intercalate_append_of_ne_nil (List.cons_ne_nil _ _) (List.cons_ne_nil _ _),
        String.intercalate_singleton]
    rw [if_neg hne]
    show "ORDER BY " ++ ", ".intercalate (first :: keys ++ [key]) = _
    rw [hkeys]
    simp only [ordering, String.append_assoc]

/-- A sort key goes behind those before it. -/
theorem perform_sortKey (k : SortKey) (p : Parts) :
    (k.perform (p.builder d s tableAlias)).1.isOk = (k.text d ⟨true, tableAlias⟩).isOk ∧
      (k.perform (p.builder d s tableAlias)).2 =
        (p.refine d ⟨true, tableAlias⟩ (.order k)).builder d s tableAlias := by
  obtain ⟨r, hr⟩ := d.orderColumn_text ⟨true, tableAlias⟩ k.column
  have htext : k.text d ⟨true, tableAlias⟩ = r.map (· ++ " " ++ k.direction.sql) := by
    unfold SortKey.text
    rw [hr]
    cases r with
    | error e => rfl
    | ok column => simp only [Except.map, Dialect.render_text]
  have hcolumn : Building.columnText true k.column (p.builder d s tableAlias) =
      (r, p.builder d s tableAlias) := by
    have hcompile : ∀ names, (p.builder d s tableAlias).dialect.compile
        { (p.builder d s tableAlias).scope with qualify := true } .order k.column names =
          (r.map .text, names) := hr
    unfold Building.columnText
    rw [get_bind_apply, bind_apply]
    simp only [Building.claiming, hcompile]
    cases r with
    | error e => rfl
    | ok column =>
      show (Except.ok (d.render (.text column)), p.builder d s tableAlias) = _
      rw [Dialect.render_text]
  unfold SortKey.perform Building.orderBy
  rw [get_bind_apply, bind_apply]
  have hqualify : (p.builder d s tableAlias).qualify = true := rfl
  rw [hqualify, hcolumn, htext]
  cases r with
  | error e =>
    refine ⟨rfl, ?_⟩
    simp [refine, htext, Except.map, Except.toOption]
  | ok column =>
    refine ⟨rfl, ?_⟩
    have hordering : (if ordering p.keys = "" then "ORDER BY " else ordering p.keys ++ ", ") ++
        column ++ " " ++ k.direction.sql =
          ordering (p.keys ++ [column ++ " " ++ k.direction.sql]) := by
      rw [ordering_append]
      simp only [String.append_assoc]
    simp only [refine, htext, Except.map, Except.toOption, Option.toList_some]
    exact congrArg (Builder.mk d (p.builder d s tableAlias).body p.names · tableAlias true)
      hordering

/-- Whether a refinement succeeds. -/
def accepts (scope : Scope) (p : Parts) : Refinement → Bool
  | .join j => (j.text d scope).isOk
  | .restrict r => (r.fragment d scope p.names).1.isOk
  | .order k => (k.text d scope).isOk

/-- A refinement changes the parts that it belongs to. -/
theorem perform_builder (op : Refinement) {p : Parts} (hp : p.Closed) :
    (op.perform (p.builder d s tableAlias)).1.isOk = p.accepts d ⟨true, tableAlias⟩ op ∧
      (op.perform (p.builder d s tableAlias)).2 =
        (p.refine d ⟨true, tableAlias⟩ op).builder d s tableAlias := by
  cases op with
  | join j => exact perform_join d s tableAlias j hp
  | restrict r => exact perform_restriction d s tableAlias r p
  | order k => exact perform_sortKey d s tableAlias k p

theorem Closed.refine {p : Parts} (hp : p.Closed) (op : Refinement)
    (hop : ∀ r ∈ Refinement.restrictions [op], r.Closed) : (p.refine d scope op).Closed := by
  cases op with
  | join j => exact hp
  | order k => exact hp
  | restrict r =>
    have hfragment := r.closed_fragment d scope (hop r List.mem_cons_self) p.names
    intro f hf
    rcases List.mem_append.mp hf with hold | hnew
    · exact hp f hold
    · apply hfragment f
      have hmade : f ∈ (r.fragment d scope p.names).1.toOption.toList := hnew
      cases hresult : (r.fragment d scope p.names).1 with
      | error e =>
        rw [hresult] at hmade
        cases hmade
      | ok g =>
        rw [hresult] at hmade
        rw [List.mem_singleton.mp hmade]

/-! ### Refining again and again -/

/-- The parts with those of refinements. -/
def refineAll (scope : Scope) (p : Parts) (ops : List Refinement) : Parts :=
  ops.foldl (refine d scope) p

/-- What came out of the computations that succeeded. -/
def successes {α : Type} (results : List (Except Fault α)) : List α :=
  results.filterMap Except.toOption

theorem successes_cons {α : Type} (result : Except Fault α) (results : List (Except Fault α)) :
    successes (result :: results) = result.toOption.toList ++ successes results := by
  cases result <;> rfl

/-- The parts in the end are those of each clause, in the order of the clause. -/
theorem refineAll_eq (p : Parts) (ops : List Refinement) :
    p.refineAll d scope ops =
      { joins := p.joins ++ successes ((Refinement.joinings ops).map (·.text d scope))
        clause := p.clause ++
          successes (Restriction.fragments d scope (Refinement.restrictions ops) p.names)
        names := (Refinement.restrictions ops).foldl (fun names r => (r.fragment d scope names).2)
          p.names
        keys := p.keys ++ successes ((Refinement.sortKeys ops).map (·.text d scope)) } := by
  induction ops generalizing p with
  | nil => simp [refineAll, successes, Refinement.joinings, Refinement.restrictions,
      Refinement.sortKeys, Restriction.fragments]
  | cons op ops ih =>
    show (p.refine d scope op).refineAll d scope ops = _
    rw [ih]
    cases op with
    | join j =>
      have hjoins : successes ((Refinement.joinings (.join j :: ops)).map (·.text d scope)) =
          (j.text d scope).toOption.toList ++
            successes ((Refinement.joinings ops).map (·.text d scope)) := by
        exact successes_cons _ _
      rw [hjoins, ← List.append_assoc]
      rfl
    | restrict r =>
      have hclause : successes (Restriction.fragments d scope
          (Refinement.restrictions (.restrict r :: ops)) p.names) =
            (r.fragment d scope p.names).1.toOption.toList ++
              successes (Restriction.fragments d scope (Refinement.restrictions ops)
                (r.fragment d scope p.names).2) := successes_cons _ _
      rw [hclause, ← List.append_assoc]
      rfl
    | order k =>
      have hkeys : successes ((Refinement.sortKeys (.order k :: ops)).map (·.text d scope)) =
          (k.text d scope).toOption.toList ++
            successes ((Refinement.sortKeys ops).map (·.text d scope)) := successes_cons _ _
      rw [hkeys, ← List.append_assoc]
      rfl

theorem performAll_builder (ops : List Refinement)
    (hops : ∀ r ∈ Refinement.restrictions ops, r.Closed) {p : Parts} (hp : p.Closed) :
    let scope : Scope := ⟨true, tableAlias⟩
    (Refinement.performAll ops (p.builder d s tableAlias)).2 =
        (p.refineAll d scope ops).builder d s tableAlias ∧
      (Refinement.performAll ops (p.builder d s tableAlias)).1.all (·.isOk) =
        (((Refinement.joinings ops).map (·.text d scope)).all (·.isOk) &&
          (Restriction.fragments d scope (Refinement.restrictions ops) p.names).all (·.isOk) &&
          ((Refinement.sortKeys ops).map (·.text d scope)).all (·.isOk)) := by
  intro scope
  induction ops generalizing p with
  | nil => exact ⟨rfl, rfl⟩
  | cons op ops ih =>
    have hsplit : Refinement.restrictions (op :: ops) =
        Refinement.restrictions [op] ++ Refinement.restrictions ops := by
      cases op <;> rfl
    rw [hsplit] at hops
    obtain ⟨haccepts, hstep⟩ := perform_builder d s tableAlias op hp
    have hclosed := hp.refine d scope op fun r hr => hops r (List.mem_append_left _ hr)
    obtain ⟨hrest, hall⟩ := ih (fun r hr => hops r (List.mem_append_right _ hr)) hclosed
    rw [Refinement.performAll_cons, hstep]
    refine ⟨hrest, ?_⟩
    rw [List.all_cons, hall, haccepts]
    -- the result comes first among all, and has to be moved to those of its own clause
    cases op with
    | join j =>
      show (_ && _) = ((_ && _) && _ && _)
      rw [Bool.and_assoc, Bool.and_assoc, Bool.and_assoc]
      rfl
    | restrict r =>
      show (_ && _) = (_ && (_ && _) && _)
      rw [Bool.and_assoc, Bool.and_assoc, Bool.and_assoc, Bool.and_left_comm]
      rfl
    | order k =>
      exact Bool.and_left_comm _ _ _

/-! ### The text of a statement -/

end Parts

/-- A selection starts with a letter. -/
theorem selection_eq_cons (s : Schema) (tableAlias : String) :
    ∃ cs, selection d s tableAlias = String.ofList ('S' :: cs) := by
  refine ⟨(selection d s tableAlias).toList.tail, ?_⟩
  apply String.toList_injective
  simp [selection]

/-- The text of a statement that starts with one blank is what it consists of and its ordering.  The
blank is cut off, and so are blanks at the end. -/
theorem Builder.sql_append_blanks (b : Builder) {c : Char} {cs : List Char} {ts : List Token}
    (hc : Text.isBlank c = false)
    (hbody : b.body.tokens = Token.compact (.text (" " ++ String.ofList (c :: cs)) :: ts)) :
    ∃ blanks, Text.allBlank blanks = true ∧
      b.sql ++ blanks = String.ofList (c :: cs) ++ b.dialect.render ⟨ts, b.body.bindings⟩ ++
        (if b.orderBy = "" then "" else " " ++ b.orderBy) := by
  let tail : List Token := if b.orderBy = "" then [] else [.text (" " ++ b.orderBy)]
  have htokens : (if b.orderBy = "" then b.body else b.body ++ .text (" " ++ b.orderBy)).tokens =
      Token.compact (.text (" " ++ String.ofList (c :: cs)) :: (ts ++ tail)) := by
    by_cases horder : b.orderBy = ""
    · simp [horder, hbody, tail]
    · simp only [horder, if_false, tail]
      rw [Fragment.append_tokens, hbody, Fragment.text_tokens, Token.append_compact,
        Token.compact_append_compact]
      rfl
  have hbindings : (if b.orderBy = "" then b.body
      else b.body ++ .text (" " ++ b.orderBy)).bindings = b.body.bindings := by
    split
    · rfl
    · exact List.append_nil _
  have htail : Fragment.render b.dialect.marker ⟨tail, b.body.bindings⟩ =
      if b.orderBy = "" then "" else " " ++ b.orderBy := by
    by_cases horder : b.orderBy = ""
    · simp only [tail, horder, if_true]
      rfl
    · simp only [tail, horder, if_false]
      rw [Fragment.render_cons]
      exact String.append_empty
  obtain ⟨blanks, hblank, hwhole⟩ := Fragment.render_trim b.dialect.marker hc htokens
  refine ⟨blanks, hblank, ?_⟩
  rw [hbindings, Fragment.render_append, htail, ← String.append_assoc] at hwhole
  exact hwhole

/-- A sort key ends with its direction. -/
theorem SortKey.text_eq_append (k : SortKey) {key : String}
    (h : (k.text d scope).toOption = some key) : ∃ t, key = t ++ String.ofList ['C'] := by
  unfold SortKey.text at h
  cases hcolumn : (d.orderColumn scope k.column .none).1 with
  | error e =>
    rw [hcolumn] at h
    cases h
  | ok f =>
    rw [hcolumn] at h
    cases h
    have hsplit : ∃ u, k.direction.sql = u ++ String.ofList ['C'] := by
      cases k.direction with
      | ascending => exact ⟨"AS", rfl⟩
      | descending => exact ⟨"DES", rfl⟩
    obtain ⟨u, hu⟩ := hsplit
    rw [hu]
    exact ⟨d.render f ++ " " ++ u, String.append_assoc.symm⟩

namespace Parts

variable (s : Schema) (tableAlias : String)

/-- The ordering ends with a direction, and so with no blank. -/
theorem ordering_eq_append {keys : List String}
    (hkeys : ∀ key ∈ keys, ∃ t, key = t ++ String.ofList ['C']) :
    ordering keys = "" ∨ ∃ t, ordering keys = t ++ String.ofList ['C'] := by
  rcases List.eq_nil_or_concat' keys with rfl | ⟨front, key, rfl⟩
  · exact .inl rfl
  · obtain ⟨t, rfl⟩ := hkeys key (by simp)
    right
    rw [ordering_append, ← String.append_assoc]
    exact ⟨_, rfl⟩

/-- The text of the statement is that of its parts in order, without blanks at its end; none are cut
off where it is ordered. -/
theorem sql_builder (p : Parts) (hkeys : ∀ key ∈ p.keys, ∃ t, key = t ++ String.ofList ['C']) :
    let b := p.builder d s tableAlias
    ∃ blanks, Text.allBlank blanks = true ∧ (b.orderBy ≠ "" → blanks = "") ∧
      b.sql ++ blanks =
        selection d s tableAlias ++ String.join p.joins ++ Fragment.sentinelText ++
          String.join (p.clause.map fun f => d.render ⟨f.tokens, b.body.bindings⟩) ++
          (if b.orderBy = "" then "" else " " ++ b.orderBy) := by
  intro b
  let front := selection d s tableAlias ++ String.join p.joins
  obtain ⟨cs, hselection⟩ := selection_eq_cons d s tableAlias
  have hfront : front = String.ofList ('S' :: (cs ++ (String.join p.joins).toList)) := by
    apply String.toList_injective
    simp [front, hselection]
  have hbody : b.body.tokens = Token.compact
      (.text (" " ++ String.ofList ('S' :: (cs ++ (String.join p.joins).toList))) ::
        .sentinel :: p.clauseTokens) := by
    have hassoc : " " ++ front = " " ++ selection d s tableAlias ++ String.join p.joins :=
      String.append_assoc.symm
    rw [← hfront, hassoc]
    rfl
  have hS : Text.isBlank 'S' = false := rfl
  have hC : Text.isBlank 'C' = false := rfl
  obtain ⟨blanks, hblank, hwhole⟩ := b.sql_append_blanks hS hbody
  have hsql : b.sql ++ blanks = front ++ Fragment.sentinelText ++
      String.join (p.clause.map fun f => d.render ⟨f.tokens, b.body.bindings⟩) ++
        (if b.orderBy = "" then "" else " " ++ b.orderBy) := by
    have hclause : b.dialect.render ⟨.sentinel :: p.clauseTokens, b.body.bindings⟩ =
        Fragment.sentinelText ++
          String.join (p.clause.map fun f => d.render ⟨f.tokens, b.body.bindings⟩) := by
      show Fragment.render d.marker _ = _
      rw [Fragment.render_cons, Parts.clauseTokens, Fragment.render_flatMap]
      rfl
    rw [hwhole, hclause, ← hfront]
    simp only [String.append_assoc]
  refine ⟨blanks, hblank, ?_, hsql⟩
  intro horder
  rcases ordering_eq_append hkeys with hnone | ⟨t, ht⟩
  · exact absurd hnone horder
  · -- an ordering ends with a letter, behind which nothing was cut off
    rw [if_neg horder] at hsql
    have hlast : b.orderBy = t ++ String.ofList ['C'] := ht
    rw [hlast, ← String.append_assoc, ← String.append_assoc] at hsql
    exact Text.eq_empty_of_allBlank hblank hC hsql

end Parts

/-! ### Every interleaving -/

namespace Refinement

/-- A select statement and the refinements of it, in any order: what it consists of depends on the
order of its joins, on the order of its restrictions and on the order of its sort keys, and not on
how they were interleaved.  The joins stand behind the selection, then one filter clause is open,
which the restrictions follow, and the ordering is at the end.  Blanks at the end of the last
restriction are cut off where nothing follows it.  Refinements that fail leave no part, and whether
they do does not depend on the interleaving either. -/
theorem performAll_assembled (s : Schema) (tableAlias : String) (ops : List Refinement)
    (hops : ∀ r ∈ restrictions ops, r.Closed) :
    let scope : Scope := ⟨true, tableAlias⟩
    let start := (Builder.new d).select s tableAlias
    let joins := (joinings ops).map (·.text d scope)
    let clause := Restriction.fragments d scope (restrictions ops) .none
    let keys := (sortKeys ops).map (·.text d scope)
    let front := selection d s tableAlias ++ String.join (Parts.successes joins)
    let pieces := Parts.successes clause
    let order := ordering (Parts.successes keys)
    let (results, b) := performAll ops start
    results.all (·.isOk) = (joins.all (·.isOk) && clause.all (·.isOk) && keys.all (·.isOk)) ∧
      b.body.tokens =
        Token.compact (.text (" " ++ front) :: .sentinel :: pieces.flatMap (·.tokens)) ∧
      b.body.bindings = pieces.flatMap (·.bindings) ∧
      b.orderBy = order ∧
      (∃ blanks, Text.allBlank blanks = true ∧ (order ≠ "" → blanks = "") ∧
        b.sql ++ blanks = front ++ " WHERE 1=1" ++
          String.join (pieces.map fun f => d.render ⟨f.tokens, b.body.bindings⟩) ++
          (if order = "" then "" else " " ++ order)) ∧
      ∀ others, joinings others = joinings ops → restrictions others = restrictions ops →
        sortKeys others = sortKeys ops →
          (performAll others start).2 = b ∧
            (performAll others start).1.all (·.isOk) = results.all (·.isOk) := by
  intro scope start joins clause keys front pieces order
  have hclosed : Parts.empty.Closed := by
    intro f hf
    cases hf
  have hstart : start = Parts.empty.builder d s tableAlias :=
    (Parts.builder_empty d s tableAlias).symm
  obtain ⟨hbuilder, hall⟩ := Parts.performAll_builder d s tableAlias ops hops hclosed
  rw [Parts.refineAll_eq] at hbuilder
  rw [← hstart] at hbuilder hall
  rcases hrun : performAll ops start with ⟨results, b⟩
  rw [hrun] at hbuilder hall
  let parts : Parts := ⟨Parts.successes joins, pieces,
    (restrictions ops).foldl (fun names r => (r.fragment d scope names).2) .none,
    Parts.successes keys⟩
  obtain rfl : b = parts.builder d s tableAlias := hbuilder
  have hkeys : ∀ key ∈ parts.keys, ∃ t, key = t ++ String.ofList ['C'] := by
    intro key hkey
    obtain ⟨result, hresult, hsuccess⟩ := List.mem_filterMap.mp hkey
    obtain ⟨k, -, rfl⟩ := List.mem_map.mp hresult
    exact k.text_eq_append d scope hsuccess
  have hfront : " " ++ selection d s tableAlias ++ String.join (Parts.successes joins) =
      " " ++ front := String.append_assoc
  refine ⟨hall, ?_, rfl, rfl, Parts.sql_builder d s tableAlias parts hkeys, ?_⟩
  · rw [← hfront]
    rfl
  · intro others hjoinings hrestrictions hsortKeys
    rw [← hrestrictions] at hops
    obtain ⟨hother, hallOther⟩ := Parts.performAll_builder d s tableAlias others hops hclosed
    rw [Parts.refineAll_eq, hjoinings, hrestrictions, hsortKeys, ← hstart] at hother
    rw [hjoinings, hrestrictions, hsortKeys, ← hstart] at hallOther
    exact ⟨hother, hallOther.trans hall.symm⟩

/-- Customers of orders. -/
def customers : Joining where
  schema := .customer
  tableAlias := "c"
  condition := .binary .eq (.member ⟨"customer_name", "customer", "orders"⟩ none)
    (.member ⟨"name", "name", "customer"⟩ (some "c"))

/-- Orders of some name, with their customers. -/
def ofCustomer (name : String) : List Refinement :=
  [.restrict (.filter (.binary .eq (.member ⟨"customer_name", "customer", "orders"⟩ none)
      (.constant (.varchar name)))),
    .order ⟨.descending, .member ⟨"id", "id", "orders"⟩ none⟩,
    .join customers,
    .restrict (.append "AND t.note = :note" (.positional [.value (.varchar "gift")]))]

/-- The same with the join in front. -/
def ofCustomerJoined (name : String) : List Refinement :=
  [.join customers,
    .restrict (.filter (.binary .eq (.member ⟨"customer_name", "customer", "orders"⟩ none)
      (.constant (.varchar name)))),
    .restrict (.append "AND t.note = :note" (.positional [.value (.varchar "gift")])),
    .order ⟨.descending, .member ⟨"id", "id", "orders"⟩ none⟩]

theorem performAll_assembled_ofCustomer :
    let start := (Builder.new .sqlite).select .order "t"
    let (results, b) := performAll (ofCustomer "Ada") start
    (∀ r ∈ restrictions (ofCustomer "Ada"), r.Closed) ∧
      results.all (·.isOk) = true ∧
      b.orderBy = "ORDER BY t.\x60id\x60 DESC" ∧
      b.body.bindings.map (·.name) = ["customer", "note"] ∧
      (performAll (ofCustomerJoined "Ada") start).2 = b := by
  have hclosed : ∀ r ∈ restrictions (ofCustomer "Ada"), r.Closed := by
    intro r hr
    rcases List.mem_cons.mp hr with rfl | hr
    · exact trivial
    · rcases List.mem_singleton.mp hr with rfl
      intro arg harg
      rcases List.mem_singleton.mp harg with rfl
      exact trivial
  obtain ⟨hall, -, hbindings, horder, -, hothers⟩ :=
    performAll_assembled .sqlite .order "t" (ofCustomer "Ada") hclosed
  refine ⟨hclosed, ?_, ?_, ?_, ?_⟩
  · apply hall.trans
    decide +kernel
  · apply horder.trans
    decide +kernel
  · have hnames := congrArg (List.map (·.name)) hbindings
    apply hnames.trans
    decide +kernel
  · exact (hothers (ofCustomerJoined "Ada") rfl rfl rfl).1

/-- A union whose second part opens a filter clause of its own. -/
def archived : Refinement :=
  .restrict (.append "UNION ALL SELECT t.id FROM archive t :rest"
    (.positional [.wrapped ⟨[.sentinel, .text " AND t.id = ", .slot], .varchar "a"⟩]))

/-- A join goes before the filter clause that was opened last, so that it matters whether it comes
before or after what opens one. -/
theorem join_matters_behind_opening :
    ¬ ∀ (d : Dialect) (s : Schema) (tableAlias : String) (ops others : List Refinement),
      joinings others = joinings ops → restrictions others = restrictions ops →
        sortKeys others = sortKeys ops →
        let start := (Builder.new d).select s tableAlias
        (performAll ops start).1.all (·.isOk) = true →
          (performAll others start).1.all (·.isOk) = true →
            (performAll others start).2.body.tokens = (performAll ops start).2.body.tokens := by
  intro hclaim
  have hsame := hclaim .sqlite .order "t" [.join customers, archived] [archived, .join customers]
    rfl rfl rfl (by decide +kernel) (by decide +kernel)
  revert hsame
  decide +kernel

end Refinement

end BoundSql
