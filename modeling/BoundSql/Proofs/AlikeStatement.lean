import BoundSql.Proofs.AlikeTemplate

/-!
# Statements that differ in the values they bind

Operations are alike when they are the same but for values that are alike.  Runs of such operations
succeed and fail at the same places and end in statements that are alike.
-/

namespace BoundSql

variable {d : Dialect}

/-! ### Builders -/

/-- Statements of a dialect that differ in nothing but the values that they bind. -/
structure Builder.Alike (d : Dialect) (b b' : Builder) : Prop where
  dialect : b.dialect = d
  rest : b' = { b with body := b'.body }
  body : b.body.Alike d b'.body

namespace Fragment

theorem Alike.takeFilterClause {f g : Fragment} (h : f.Alike d g) :
    f.takeFilterClause.1 = g.takeFilterClause.1 ∧
      f.takeFilterClause.2.Alike d g.takeFilterClause.2 := by
  unfold Fragment.takeFilterClause
  rw [h.tokens]
  split
  · exact ⟨rfl, h.withTokens _⟩
  · exact ⟨rfl, h⟩

theorem Alike.editSelectList? {f g : Fragment} (h : f.Alike d g)
    (edit : List String → List String) :
    Option.Rel (Alike d) (f.editSelectList? edit) (g.editSelectList? edit) := by
  unfold Fragment.editSelectList?
  rw [h.tokens]
  cases editTokens? edit g.tokens with
  | none => exact .none
  | some ts => exact .some (h.withTokens ts)

theorem Alike.trim {f g : Fragment} (h : f.Alike d g) : f.trim.Alike d g.trim := by
  unfold Fragment.trim
  rw [h.tokens]
  exact h.withTokens _

theorem Alike.sealed {f g : Fragment} (h : f.Alike d g) : f.sealed.Alike d g.sealed := by
  unfold Fragment.sealed
  rw [h.tokens]
  exact h.withTokens _

theorem Alike.claimNames {f g : Fragment} (h : f.Alike d g) (names : Names) :
    (f.claimNames names).2 = (g.claimNames names).2 ∧
      (f.claimNames names).1.Alike d (g.claimNames names).1 := by
  have hnames : f.bindings.map (·.name) = g.bindings.map (·.name) := h.names_eq
  unfold Fragment.claimNames
  rw [hnames]
  refine ⟨rfl, ?_, ?_⟩
  · simp only [rename, h.tokens]
  · simp only [rename]
    rw [List.forall₂_map_left_iff, List.forall₂_map_right_iff]
    exact h.bindings.imp fun _ _ hb => ⟨congrArg (renamed _) hb.name, hb.value⟩

end Fragment

namespace Builder.Alike

variable {b b' : Builder}

theorem dialect_eq (h : b.Alike d b') : b'.dialect = b.dialect := by rw [h.rest]

theorem names_eq (h : b.Alike d b') : b'.names = b.names := by rw [h.rest]

theorem orderBy_eq (h : b.Alike d b') : b'.orderBy = b.orderBy := by rw [h.rest]

theorem qualify_eq (h : b.Alike d b') : b'.qualify = b.qualify := by rw [h.rest]

theorem scope_eq (h : b.Alike d b') : b'.scope = b.scope := by
  rw [h.rest]
  rfl

theorem withBody (h : b.Alike d b') {f f' : Fragment} (hf : f.Alike d f') :
    Builder.Alike d { b with body := f } { b' with body := f' } := by
  refine ⟨h.dialect, ?_, hf⟩
  rw [h.rest]

theorem withNames (h : b.Alike d b') (names : Names) :
    Builder.Alike d { b with names } { b' with names } := by
  refine ⟨h.dialect, ?_, h.body⟩
  rw [h.rest]

theorem build (h : b.Alike d b') : b.build.Alike d b'.build := by
  unfold Builder.build
  rw [h.orderBy_eq]
  split
  · exact h.body.trim
  · exact (h.body.append (Fragment.alike_text _)).trim

/-- Put into another statement, such statements are alike as well. -/
theorem toFragment (h : b.Alike d b') : b.toFragment.Alike d b'.toFragment :=
  h.build.sealed.trim

end Builder.Alike

theorem Builder.alike_start (d : Dialect) (start : Start) :
    Builder.Alike d (start.builder d) (start.builder d) := by
  cases start with
  | blank => exact ⟨rfl, rfl, Fragment.alike_of_unbound⟩
  | condition => exact ⟨rfl, rfl, Fragment.alike_of_unbound⟩

/-! ### Computations on builders -/

namespace Building

/-- On statements that are alike both computations leave statements that are alike, and both fail
or their results are related. -/
abbrev Alike {α β : Type} (d : Dialect) (R : α → β → Prop) (c : Building α) (c' : Building β) :
    Prop :=
  Parallel (Builder.Alike d) R c c'

theorem alike_ofExcept {α β : Type} {R : α → β → Prop} {r : Except Fault α} {r' : Except Fault β}
    (h : SameOutcome R r r') : Alike d R (ofExcept r) (ofExcept r') :=
  fun _ _ hb => ⟨hb, h⟩

theorem alike_fault {α β : Type} (R : α → β → Prop) (e e' : Fault) :
    Alike d R (fault e) (fault e') :=
  fun _ _ hb => ⟨hb, .error e e'⟩

theorem alike_modify {g g' : Builder → Builder} (h : ∀ b b', b.Alike d b' → (g b).Alike d (g' b')) :
    Alike d (· = ·) (modify g) (modify g') :=
  fun b b' hb => ⟨h b b' hb, .ok rfl⟩

theorem alike_push {f g : Fragment} (h : f.Alike d g) : Alike d (· = ·) (push f) (push g) :=
  alike_modify fun _ _ hb => hb.withBody (hb.body.append h)

theorem alike_claiming {α β : Type} {R : α → β → Prop} {c : Builder → Claiming α}
    {c' : Builder → Claiming β} (h : ∀ b b', b.Alike d b' → Claiming.Alike R (c b) (c' b')) :
    Alike d R (claiming c) (claiming c') := by
  intro b b' hb
  obtain ⟨hnames, hresult⟩ := h b b' hb b.names b.names rfl
  simp only [claiming, hb.names_eq]
  rcases hrun : c b b.names with ⟨r, names⟩
  rcases hrun' : c' b' b.names with ⟨r', names'⟩
  rw [hrun, hrun'] at hnames hresult
  obtain rfl : names = names' := hnames
  exact ⟨hb.withNames names, hresult⟩

/-! ### Operations -/

theorem alike_compileIn (scope : Scope → Scope) (clause : Clause) {n n' : Node}
    (h : n.Alike d n') :
    Alike d (Fragment.Alike d) (claiming fun b => b.dialect.compile (scope b.scope) clause n)
      (claiming fun b => b.dialect.compile (scope b.scope) clause n') := by
  apply alike_claiming
  intro b b' hb
  rw [hb.dialect_eq, hb.dialect, hb.scope_eq]
  exact Dialect.alike_compile _ clause h

theorem alike_columnText (qualified : Bool) {n n' : Node} (h : n.Alike d n') :
    Alike d (· = ·) (columnText qualified n) (columnText qualified n') := by
  apply Parallel.get_bind
  intro b b' hb
  refine (alike_compileIn (fun scope => { scope with qualify := qualified }) .order h).bind ?_
  intro f g hfg
  rw [hb.dialect_eq, hb.dialect]
  exact parallel_pure hfg.render_eq

theorem alike_append (template : String) {args args' : Args} (h : args.Alike d args') :
    Alike d (· = ·) (append template args) (append template args') := by
  refine (alike_ofExcept (resolve_alike _ _ h)).bind ?_
  intro resolved resolved' hresolved
  refine (alike_claiming fun _ _ _ => alike_expand hresolved [] _).bind ?_
  intro piece piece' hpiece
  exact alike_push ((Fragment.alike_text _).append hpiece)

theorem alike_appendFormat (template : String) (args : List String) :
    Alike d (· = ·) (appendFormat template args) (appendFormat template args) := by
  have hsame : ∀ r : Except Fault String, SameOutcome (· = ·) r r := by
    intro r
    cases r with
    | error e => exact .error e e
    | ok text => exact .ok rfl
  refine (alike_ofExcept (hsame _)).bind ?_
  rintro text - rfl
  exact alike_push (Fragment.alike_text _)

theorem alike_appendSubquery (head : String) {sub sub' : Fragment} (h : sub.Alike d sub') :
    Alike d (· = ·) (appendSubquery head sub) (appendSubquery head sub') := by
  refine Parallel.bind (R := Fragment.Alike d) (alike_claiming ?_) ?_
  · rintro b b' - names - rfl
    obtain ⟨hnames, hclaimed⟩ := h.claimNames names
    exact ⟨hnames, .ok hclaimed⟩
  · intro f g hfg
    exact alike_push (((Fragment.alike_text _).append hfg).append (Fragment.alike_text _))

theorem alike_filter {n n' : Node} (h : n.Alike d n') :
    Alike d (· = ·) (filter n) (filter n') := by
  refine (alike_compileIn id .filter h).bind ?_
  intro f g hfg
  exact alike_push (((Fragment.alike_text _).append hfg).append (Fragment.alike_text _))

theorem alike_leftJoin (s : Schema) (tableAlias : String) {n n' : Node} (h : n.Alike d n') :
    Alike d (· = ·) (leftJoin s tableAlias n) (leftJoin s tableAlias n') := by
  refine (alike_compileIn id .join h).bind ?_
  intro f g hfg
  apply alike_modify
  intro b b' hb
  obtain ⟨hclause, hbody⟩ := hb.body.takeFilterClause
  rcases hcut : b.body.takeFilterClause with ⟨clause, body⟩
  rcases hcut' : b'.body.takeFilterClause with ⟨clause', body'⟩
  rw [hcut, hcut'] at hclause hbody
  obtain rfl : clause = clause' := hclause
  apply hb.withBody
  rw [hb.dialect_eq]
  refine Fragment.Alike.pushTokens (Fragment.Alike.append ?_ Fragment.alike_of_unbound) _
  exact (Fragment.Alike.append hbody (Fragment.alike_text _)).append hfg

theorem alike_selectJoin {source source' target target' : Node} (hs : source.Alike d source')
    (ht : target.Alike d target') :
    Alike d (· = ·) (selectJoin source target) (selectJoin source' target') := by
  apply Parallel.get_bind
  intro b b' hb
  rw [hb.qualify_eq]
  refine (alike_columnText _ hs).bind ?_
  rintro source - rfl
  refine (alike_columnText _ ht).bind ?_
  rintro replaced - rfl
  refine (alike_columnText _ ht).bind ?_
  rintro label - rfl
  have hedit := hb.body.editSelectList? fun items =>
    items.filter (· != replaced) ++ [source ++ " AS " ++ label]
  dsimp only
  generalize b.body.editSelectList? _ = edited at hedit ⊢
  generalize b'.body.editSelectList? _ = edited' at hedit ⊢
  cases hedit with
  | none => exact alike_fault _ _ _
  | some hbody => exact alike_modify fun _ _ h => h.withBody hbody

theorem alike_orderBy (direction : Direction) {n n' : Node} (h : n.Alike d n') :
    Alike d (· = ·) (orderBy direction n) (orderBy direction n') := by
  apply Parallel.get_bind
  intro b b' hb
  rw [hb.qualify_eq]
  refine (alike_columnText _ h).bind ?_
  rintro column - rfl
  apply alike_modify
  intro b b' hb
  refine ⟨hb.dialect, ?_, hb.body⟩
  rw [hb.orderBy_eq]
  rw [hb.rest]

end Building

/-! ### Runs -/

/-- Operations that are the same but for values that are alike. -/
inductive Operation.Alike (d : Dialect) : Operation → Operation → Prop where
  | withAlias (tableAlias : String) : Alike d (withAlias tableAlias) (withAlias tableAlias)
  | select (s : Schema) (tableAlias : String) : Alike d (select s tableAlias) (select s tableAlias)
  | append (template : String) {x y : Operands} (h : x.Alike d y) :
    Alike d (append template x) (append template y)
  | appendFormat (template : String) (args : List String) :
    Alike d (appendFormat template args) (appendFormat template args)
  | appendSubquery (head : String) {sub sub' : Fragment} (h : sub.Alike d sub') :
    Alike d (appendSubquery head sub) (appendSubquery head sub')
  | filter {n n' : Node} (h : n.Alike d n') : Alike d (filter n) (filter n')
  | leftJoin (s : Schema) (tableAlias : String) {n n' : Node} (h : n.Alike d n') :
    Alike d (leftJoin s tableAlias n) (leftJoin s tableAlias n')
  | selectJoin {source source' target target' : Node} (hs : source.Alike d source')
    (ht : target.Alike d target') : Alike d (selectJoin source target) (selectJoin source' target')
  | orderBy (direction : Direction) {n n' : Node} (h : n.Alike d n') :
    Alike d (orderBy direction n) (orderBy direction n')
  | onlyIf (condition : Bool) {op op' : Operation} (h : Alike d op op') :
    Alike d (onlyIf condition op) (onlyIf condition op')

namespace Operation

theorem Alike.perform {op op' : Operation} (h : op.Alike d op') :
    Building.Alike d (· = ·) op.perform op'.perform := by
  induction h with
  | withAlias tableAlias =>
    apply Building.alike_modify
    intro b b' hb
    refine ⟨hb.dialect, ?_, hb.body⟩
    rw [hb.rest]
    rfl
  | select s tableAlias =>
    apply Building.alike_modify
    intro b b' hb
    refine ⟨hb.dialect, ?_, ?_⟩
    · rw [hb.rest]
      rfl
    · simp only [Builder.select]
      rw [hb.dialect_eq]
      exact (hb.body.append (Fragment.alike_text _)).append Fragment.alike_of_unbound
  | append template h =>
    intro b b' hb
    dsimp only [Operation.perform]
    rw [hb.dialect_eq, hb.dialect]
    exact Building.alike_append template h.args b b' hb
  | appendFormat template args => exact Building.alike_appendFormat template args
  | appendSubquery head h => exact Building.alike_appendSubquery head h
  | filter h => exact Building.alike_filter h
  | leftJoin s tableAlias h => exact Building.alike_leftJoin s tableAlias h
  | selectJoin hs ht => exact Building.alike_selectJoin hs ht
  | orderBy direction h => exact Building.alike_orderBy direction h
  | onlyIf condition h ih =>
    cases condition with
    | false => exact parallel_pure rfl
    | true => exact ih

theorem alike_performAll {ops ops' : List Operation} (h : List.Forall₂ (Alike d) ops ops')
    {b b' : Builder} (hb : b.Alike d b') :
    (performAll ops b).1.map (·.isOk) = (performAll ops' b').1.map (·.isOk) ∧
      (performAll ops b).2.Alike d (performAll ops' b').2 := by
  induction h generalizing b b' with
  | nil => exact ⟨rfl, hb⟩
  | cons hop _ ih =>
    obtain ⟨hafter, hresult⟩ := hop.perform b b' hb
    obtain ⟨hresults, hend⟩ := ih hafter
    refine ⟨?_, hend⟩
    rw [performAll_cons, performAll_cons, List.map_cons, List.map_cons, hresult.isOk_eq, hresults]

end Operation

end BoundSql
