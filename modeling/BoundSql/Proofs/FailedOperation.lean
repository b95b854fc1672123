import BoundSql.Proofs.BoundStatement
import BoundSql.Proofs.Matching
import BoundSql.Proofs.NewBindings

/-!
# Statements that an operation has failed on

An operation claims names before it can fail, and a fault does not give them back.  They are all
that an operation that failed leaves behind (`Edit.atomic_perform`).  What is done to the statement
next may therefore be given other names than it would have been given, and the statement becomes the
same one up to a relabeling (`Edit.relabels_perform`, `Edit.statement_after_failure`).

This is so as long as every marker that is put into the statement is claimed.  A text made by hand
around a single value may carry markers of its own.  Those are left as they are, and whether they
name a binding of the statement depends on the names that were free
(`Edit.handmade_marker_after_failure`).
-/

namespace BoundSql

open Names (Matched)

variable {ρ σ : Equiv.Perm String} {b b' : Builder}

/-! ### Steps -/

/-- What can be done to a statement: an operation, or a template with arguments of any make. -/
inductive Edit where
  | operation (op : Operation)
  | append (template : String) (args : Args)

namespace Edit

def perform : Edit → Building Unit
  | operation op => op.perform
  | append template args => Building.append template args

/-- Goes on after a step that failed. -/
def performAll : List Edit → Builder → List (Except Fault Unit) × Builder
  | [], b => ([], b)
  | x :: xs, b =>
    let (result, b) := x.perform b
    let (results, b) := performAll xs b
    (result :: results, b)

theorem performAll_cons (x : Edit) (xs : List Edit) (b : Builder) :
    performAll (x :: xs) b =
      ((x.perform b).1 :: (performAll xs (x.perform b).2).1,
        (performAll xs (x.perform b).2).2) := rfl

end Edit

/-- Every marker of the statements put into this one has a binding there. -/
def Operation.SubsMarked : Operation → Prop
  | appendSubquery _ sub => Token.paramNames sub.tokens ⊆ sub.names
  | onlyIf _ op => op.SubsMarked
  | _ => True

/-- No marker is written that was not claimed. -/
def Edit.Marked : Edit → Prop
  | operation op => op.SubsMarked
  | append _ args => args.Proper

/-! ### Columns -/

namespace Building

theorem columnText_bind_apply (qualified : Bool) (n : Node) (k : String → Building Unit)
    (b : Builder) :
    (columnText qualified n >>= k) b =
      match (b.dialect.orderColumn ⟨qualified, b.tableAlias⟩ n .none).1 with
      | .ok f => k (b.dialect.render f) b
      | .error e => (.error e, b) := by
  rw [bind_apply, columnText_apply]
  cases (b.dialect.orderColumn ⟨qualified, b.tableAlias⟩ n .none).1 <;> rfl

/-! ### Writing into the statement -/

/-- Claims names for a fragment, and makes another body of the body and the fragment. -/
def writing (c : Builder → Claiming Fragment) (g : Dialect → Fragment → Fragment → Fragment) :
    Building Unit :=
  claiming c >>= fun f => modify fun b => { b with body := g b.dialect b.body f }

theorem writing_apply (c : Builder → Claiming Fragment)
    (g : Dialect → Fragment → Fragment → Fragment) (b : Builder) :
    writing c g b =
      match c b b.names with
      | (.ok f, names) => (.ok (), { b with body := g b.dialect b.body f, names })
      | (.error e, names) => (.error e, { b with names }) := by
  unfold writing
  rw [bind_apply]
  simp only [claiming]
  rcases c b b.names with ⟨r, names⟩
  cases r <;> rfl

theorem append_eq_writing (template : String) (args : Args) :
    append template args =
      ofExcept (resolve (Text.trim template)
        (Template.placeholders (Template.scan (Text.trim template))) args) >>= fun resolved =>
      writing (fun _ => expand resolved [] (Template.scan (Text.trim template)))
        fun _ body piece => body ++ (.text " " ++ piece) := rfl

theorem appendSubquery_eq_writing (head : String) (sub : Fragment) :
    appendSubquery head sub =
      writing (fun _ names => (.ok (sub.claimNames names).1, (sub.claimNames names).2))
        fun _ body sub => body ++ (.text (" " ++ Text.trim head ++ " (") ++ sub ++ .text ")") :=
  rfl

theorem filter_eq_writing (n : Node) :
    filter n = writing (fun b => b.dialect.compile b.scope .filter n)
      fun _ body f => body ++ (.text " AND (" ++ f ++ .text ")") := rfl

/-- The body with a join in front of its filter clause. -/
def joined (s : Schema) (tableAlias : String) (d : Dialect) (body on : Fragment) : Fragment :=
  ((body.takeFilterClause.2 ++
    .text (" LEFT JOIN " ++ d.tableRef s.table (some tableAlias) ++ " ON ") ++ on) ++
    .sentinel).pushTokens (body.takeFilterClause.1.getD [])

theorem leftJoin_eq_writing (s : Schema) (tableAlias : String) (n : Node) :
    leftJoin s tableAlias n =
      writing (fun b => b.dialect.compile b.scope .join n) (joined s tableAlias) := rfl

end Building

/-! ### What an operation that failed leaves behind -/

namespace Claiming

/-- Names stay taken. -/
def Grows (c : Claiming Fragment) : Prop :=
  Along (fun before after => before.taken ⊆ after.taken) c

theorem Fresh.grows {c : Claiming Fragment} (hc : Fresh c) : Grows c := fun names => (hc names).1

end Claiming

open Claiming

/-- Names stay taken, and after a fault nothing else has changed. -/
structure Builder.Kept (b : Builder) (outcome : Except Fault Unit × Builder) : Prop where
  taken : b.names.taken ⊆ outcome.2.names.taken
  unchanged : ∀ e, outcome.1 = .error e → outcome.2 = { b with names := outcome.2.names }

namespace Building

open Builder

/-- An operation that fails takes names and changes nothing else. -/
def Atomic (c : Building Unit) : Prop := ∀ b, Kept b (c b)

theorem kept_self (e : Fault) : Kept b (.error e, b) := ⟨List.Subset.refl _, fun _ _ => rfl⟩

theorem kept_ok (h : b.names.taken ⊆ b'.names.taken) : Kept b (.ok (), b') :=
  ⟨h, fun e he => by cases he⟩

theorem atomic_writing {c : Builder → Claiming Fragment}
    {g : Dialect → Fragment → Fragment → Fragment} (hc : ∀ b, Grows (c b)) :
    Atomic (writing c g) := by
  intro b
  have hgrow := hc b b.names
  rw [writing_apply]
  rcases hrun : c b b.names with ⟨r, names⟩
  rw [hrun] at hgrow
  cases r with
  | error e => exact ⟨hgrow, fun _ _ => rfl⟩
  | ok f => exact kept_ok hgrow

theorem kept_columnText_bind {qualified : Bool} {n : Node} {k : String → Building Unit}
    (hk : ∀ column, Kept b (k column b)) : Kept b ((columnText qualified n >>= k) b) := by
  rw [columnText_bind_apply]
  split
  · exact hk _
  · exact kept_self _

theorem atomic_append (template : String) (args : Args) : Atomic (append template args) := by
  intro b
  rw [append_eq_writing, bind_apply]
  simp only [ofExcept]
  cases resolve (Text.trim template)
      (Template.placeholders (Template.scan (Text.trim template))) args with
  | error e => exact kept_self e
  | ok resolved => exact atomic_writing (fun _ => (fresh_expand resolved [] _).grows) b

theorem atomic_appendFormat (template : String) (args : List String) :
    Atomic (appendFormat template args) := by
  intro b
  unfold appendFormat
  rw [bind_apply]
  simp only [ofExcept]
  cases Template.format (Text.trim template) args with
  | error e => exact kept_self e
  | ok text => exact kept_ok (List.Subset.refl _)

theorem atomic_appendSubquery (head : String) (sub : Fragment) :
    Atomic (appendSubquery head sub) := by
  rw [appendSubquery_eq_writing]
  exact atomic_writing fun _ names => sub.taken_subset_claimNames names

theorem atomic_filter (n : Node) : Atomic (filter n) := by
  rw [filter_eq_writing]
  apply atomic_writing
  intro b names
  have hsound : Sound [] (b.dialect.compile b.scope .filter n) := b.dialect.sound_compile _ _ n
  exact (hsound names).1

theorem atomic_leftJoin (s : Schema) (tableAlias : String) (n : Node) :
    Atomic (leftJoin s tableAlias n) := by
  rw [leftJoin_eq_writing]
  apply atomic_writing
  intro b names
  have hsound : Sound [] (b.dialect.compile b.scope .join n) := b.dialect.sound_compile _ _ n
  exact (hsound names).1

theorem atomic_selectJoin (source target : Node) : Atomic (selectJoin source target) := by
  intro b
  unfold selectJoin
  rw [get_bind_apply]
  apply kept_columnText_bind
  intro source
  apply kept_columnText_bind
  intro replaced
  apply kept_columnText_bind
  intro label
  cases b.body.editSelectList? _ with
  | some body => exact kept_ok (List.Subset.refl _)
  | none => exact kept_self _

theorem atomic_orderBy (direction : Direction) (n : Node) : Atomic (orderBy direction n) := by
  intro b
  unfold orderBy
  rw [get_bind_apply]
  apply kept_columnText_bind
  intro column
  exact kept_ok (List.Subset.refl _)

end Building

theorem Operation.atomic_perform (op : Operation) : Building.Atomic op.perform := by
  induction op with
  | withAlias tableAlias => exact fun _ => Building.kept_ok (List.Subset.refl _)
  | select s tableAlias => exact fun _ => Building.kept_ok (List.Subset.refl _)
  | append template operands =>
    intro b
    exact Building.atomic_append template (operands.args b.dialect) b
  | appendFormat template args => exact Building.atomic_appendFormat template args
  | appendSubquery head sub => exact Building.atomic_appendSubquery head sub
  | filter n => exact Building.atomic_filter n
  | leftJoin s tableAlias n => exact Building.atomic_leftJoin s tableAlias n
  | selectJoin source target => exact Building.atomic_selectJoin source target
  | orderBy direction n => exact Building.atomic_orderBy direction n
  | onlyIf condition op ih =>
    cases condition with
    | false => exact fun _ => Building.kept_ok (List.Subset.refl _)
    | true => exact ih

theorem Edit.atomic_perform (x : Edit) : Building.Atomic x.perform := by
  cases x with
  | operation op => exact op.atomic_perform
  | append template args => exact Building.atomic_append template args

/-! ### What is done to the statement afterwards -/

theorem Fragment.labels_editSelectList? (edit : List String → List String) {f g : Fragment}
    (h : f.editSelectList? edit = some g) : g.labels = f.labels := by
  obtain ⟨ts, hts, rfl⟩ := Option.map_eq_some_iff.mp h
  simp only [labels, names, paramNames_editTokens? edit hts]

/-- The same statement with other names for its parameters, and other names taken. -/
inductive Builder.Relabeled (ρ : Equiv.Perm String) (b : Builder) : Builder → Prop where
  | mk {others : Names} (h : Matched ρ b.body.labels b.names others) :
    Relabeled ρ b { b with body := b.body.relabel ρ, names := others }

theorem Builder.Relabeled.pushed (h : Relabeled ρ b b') (f : Fragment) (hf : f.labels = [])
    (hsame : f.relabel ρ = f) :
    Relabeled ρ { b with body := b.body ++ f } { b' with body := b'.body ++ f } := by
  cases h with
  | mk h =>
    have hbody : b.body.relabel ρ ++ f = (b.body ++ f).relabel ρ := by
      rw [Fragment.relabel_append, hsame]
    simp only [hbody]
    refine .mk (h.mono ?_)
    intro name hname
    rcases Fragment.mem_labels_append.mp hname with hname | hname
    · exact hname
    · simp [hf] at hname

/-- The same result, and the same statement up to a relabeling. -/
structure SameButNames (outcome outcome' : Except Fault Unit × Builder) : Prop where
  result : outcome'.1 = outcome.1
  relabeled : ∃ ρ : Equiv.Perm String, Builder.Relabeled ρ outcome.2 outcome'.2

namespace Building

open Builder

/-- What is done to a statement and to one with other names comes to the same, but for names. -/
def Relabels (c : Building Unit) : Prop :=
  ∀ (ρ : Equiv.Perm String) b b', Relabeled ρ b b' → SameButNames (c b) (c b')

theorem relabels_writing {c : Builder → Claiming Fragment}
    {g : Dialect → Fragment → Fragment → Fragment}
    (hc : ∀ (ρ : Equiv.Perm String) b b', Relabeled ρ b b' →
      Follows ρ b.body.labels (c b) (c b'))
    (hlabels : ∀ d body f, (g d body f).labels ⊆ f.labels ++ body.labels)
    (hg : ∀ (ρ : Equiv.Perm String) d body f,
      g d (body.relabel ρ) (f.relabel ρ) = (g d body f).relabel ρ) :
    Relabels (writing c g) := by
  intro ρ b b' h
  have hrun := hc ρ b b' h
  cases h with
  | mk h =>
    have hmatches := hrun _ _ h
    rw [writing_apply, writing_apply]
    rcases hfirst : c b b.names with ⟨r, names⟩
    rcases hsecond : c { b with body := b.body.relabel ρ, names := _ } _ with ⟨r', names'⟩
    rw [hfirst, hsecond] at hmatches
    cases hmatches with
    | error h => exact ⟨rfl, ρ, .mk h⟩
    | @ok σ f _ _ hσ h =>
      have hbody : b.body.relabel ρ = b.body.relabel σ :=
        Fragment.relabel_congr fun name hname => (hσ name hname).symm
      refine ⟨rfl, σ, ?_⟩
      simp only [hbody, hg]
      exact .mk (h.mono (hlabels _ _ _))

theorem same_columnText_bind {qualified : Bool} {n : Node} {k k' : String → Building Unit}
    (h : Relabeled ρ b b') (hk : ∀ column, SameButNames (k column b) (k' column b')) :
    SameButNames ((columnText qualified n >>= k) b) ((columnText qualified n >>= k') b') := by
  rw [columnText_bind_apply, columnText_bind_apply]
  cases h with
  | mk h =>
    dsimp only
    split
    · exact hk _
    · exact ⟨rfl, ρ, .mk h⟩

theorem relabels_append (template : String) {args : Args} (hargs : args.Proper) :
    Relabels (append template args) := by
  intro ρ b b' h
  rw [append_eq_writing, bind_apply, bind_apply]
  simp only [ofExcept]
  cases hresolve : resolve (Text.trim template)
      (Template.placeholders (Template.scan (Text.trim template))) args with
  | error e => exact ⟨rfl, ρ, h⟩
  | ok resolved =>
    refine relabels_writing ?_ ?_ ?_ ρ b b' h
    · intro ρ b b' _
      exact follows_expand resolved (hargs.of_resolve hresolve) _ [] [] _ (by simp) (by simp)
    · intro d body piece name hname
      simpa [Fragment.mem_labels_append, or_comm] using hname
    · intro ρ d body piece
      simp only [Fragment.relabel_append, Fragment.relabel_text]

theorem relabels_appendFormat (template : String) (args : List String) :
    Relabels (appendFormat template args) := by
  intro ρ b b' h
  unfold appendFormat
  rw [bind_apply, bind_apply]
  simp only [ofExcept]
  cases Template.format (Text.trim template) args with
  | error e => exact ⟨rfl, ρ, h⟩
  | ok text =>
    exact ⟨rfl, ρ, h.pushed (.text (" " ++ text)) (by simp)
      (by simp)⟩

theorem relabels_appendSubquery (head : String) {sub : Fragment}
    (hsub : Token.paramNames sub.tokens ⊆ sub.names) : Relabels (appendSubquery head sub) := by
  rw [appendSubquery_eq_writing]
  apply relabels_writing
  · intro ρ b b' _
    exact sub.follows_claimNames hsub
  · intro d body f name hname
    simpa [Fragment.mem_labels_append, or_comm] using hname
  · intro ρ d body f
    simp only [Fragment.relabel_append, Fragment.relabel_text]

theorem relabels_filter (n : Node) : Relabels (filter n) := by
  rw [filter_eq_writing]
  apply relabels_writing
  · intro ρ b b' h
    cases h with
    | mk _ => exact (b.dialect.composed_compile b.scope .filter n).follows
  · intro d body f name hname
    simpa [Fragment.mem_labels_append, or_comm] using hname
  · intro ρ d body f
    simp only [Fragment.relabel_append, Fragment.relabel_text]

theorem labels_joined (s : Schema) (tableAlias : String) (d : Dialect) (body on : Fragment) :
    (joined s tableAlias d body on).labels ⊆ on.labels ++ body.labels := by
  obtain ⟨hmarkers, hbindings⟩ := body.takeFilterClause_keeps
  intro name hname
  simp only [Fragment.labels, Fragment.names, joined, Fragment.pushTokens_tokens,
    Fragment.pushTokens_bindings, Fragment.append_tokens, Fragment.append_bindings,
    Token.paramNames_append, Fragment.text_tokens, Fragment.sentinel_tokens,
    Token.paramNames_compact, Token.paramNames_cons_text, Token.paramNames_cons_sentinel,
    Token.paramNames_nil, Fragment.text_bindings, Fragment.sentinel_bindings, List.append_nil,
    List.mem_append, List.map_append, hbindings, ← hmarkers] at hname ⊢
  tauto

theorem relabels_leftJoin (s : Schema) (tableAlias : String) (n : Node) :
    Relabels (leftJoin s tableAlias n) := by
  rw [leftJoin_eq_writing]
  apply relabels_writing
  · intro ρ b b' h
    cases h with
    | mk _ => exact (b.dialect.composed_compile b.scope .join n).follows
  · exact labels_joined s tableAlias
  · intro ρ d body f
    simp only [joined, Fragment.takeFilterClause_relabel, Fragment.relabel_pushTokens,
      Fragment.relabel_append, Fragment.relabel_text, Fragment.relabel_sentinel]
    cases body.takeFilterClause.1 <;> rfl

theorem relabels_selectJoin (source target : Node) : Relabels (selectJoin source target) := by
  intro ρ b b' h
  unfold selectJoin
  rw [get_bind_apply, get_bind_apply]
  have hqualify : b'.qualify = b.qualify := by
    cases h
    rfl
  rw [hqualify]
  apply same_columnText_bind h
  intro source
  apply same_columnText_bind h
  intro replaced
  apply same_columnText_bind h
  intro label
  cases h with
  | mk h =>
    simp only [Fragment.editSelectList?_relabel]
    cases hedit : b.body.editSelectList? _ with
    | none => exact ⟨rfl, ρ, .mk h⟩
    | some body =>
      have hlabels : body.labels = b.body.labels := Fragment.labels_editSelectList? _ hedit
      exact ⟨rfl, ρ, .mk (b := { b with body }) (by rwa [hlabels])⟩

theorem relabels_orderBy (direction : Direction) (n : Node) :
    Relabels (orderBy direction n) := by
  intro ρ b b' h
  unfold orderBy
  rw [get_bind_apply, get_bind_apply]
  have hqualify : b'.qualify = b.qualify := by
    cases h
    rfl
  rw [hqualify]
  apply same_columnText_bind h
  intro column
  cases h with
  | mk h => exact ⟨rfl, ρ, .mk h⟩

end Building

theorem Operation.relabels_perform (op : Operation) (hop : op.SubsMarked) :
    Building.Relabels op.perform := by
  induction op with
  | withAlias tableAlias =>
    intro ρ b b' h
    cases h with
    | mk h => exact ⟨rfl, ρ, .mk h⟩
  | select s tableAlias =>
    intro ρ b b' h
    refine ⟨rfl, ρ, ?_⟩
    cases h with
    | mk h =>
      -- the text depends on the dialect alone, and the alias is the same in both
      exact ((Builder.Relabeled.mk (b := { b with tableAlias, qualify := true }) h).pushed
        (.text _) (by simp) (by simp)).pushed .sentinel (by simp) rfl
  | append template operands =>
    intro ρ b b' h
    have hdialect : b'.dialect = b.dialect := by
      cases h
      rfl
    show SameButNames (Building.append template (operands.args b.dialect) b)
      (Building.append template (operands.args b'.dialect) b')
    rw [hdialect]
    exact Building.relabels_append template (operands.proper_args _) ρ b b' h
  | appendFormat template args => exact Building.relabels_appendFormat template args
  | appendSubquery head sub => exact Building.relabels_appendSubquery head hop
  | filter n => exact Building.relabels_filter n
  | leftJoin s tableAlias n => exact Building.relabels_leftJoin s tableAlias n
  | selectJoin source target => exact Building.relabels_selectJoin source target
  | orderBy direction n => exact Building.relabels_orderBy direction n
  | onlyIf condition op ih =>
    cases condition with
    | false => exact fun ρ b b' h => ⟨rfl, ρ, h⟩
    | true => exact ih hop

theorem Edit.relabels_perform (x : Edit) (hx : x.Marked) : Building.Relabels x.perform := by
  cases x with
  | operation op => exact op.relabels_perform hx
  | append template args => exact Building.relabels_append template hx

/-! ### Runs -/

namespace Builder.Relabeled

theorem eq (h : Relabeled ρ b b') :
    b' = { b with body := b.body.relabel ρ, names := b'.names } := by
  cases h
  rfl

theorem build_eq (h : Relabeled ρ b b') : b'.build = b.build.relabel ρ := by
  cases h with
  | mk h =>
    unfold build
    dsimp only
    split
    · rw [Fragment.trim_relabel]
    · rw [← Fragment.trim_relabel, Fragment.relabel_append, Fragment.relabel_text]

theorem toFragment_eq (h : Relabeled ρ b b') : b'.toFragment = b.toFragment.relabel ρ := by
  unfold toFragment
  rw [h.build_eq, Fragment.sealed_relabel, Fragment.trim_relabel]

theorem start (d : Dialect) (s : Start) : Relabeled ρ (s.builder d) (s.builder d) := by
  cases s with
  | blank => exact .mk (b := .new d) ⟨List.nil_subset _, fun _ h => (List.not_mem_nil h).elim⟩
  | condition =>
    exact .mk (b := .condition d) ⟨List.nil_subset _, fun _ h => (List.not_mem_nil h).elim⟩

/-- The names that occur in the statement are taken. -/
theorem labels_subset (h : Relabeled ρ b b') : b.body.labels ⊆ b.names.taken := by
  cases h with
  | mk h => exact h.taken

/-- A statement is the same one when more names are taken. -/
theorem of_labels_subset (hlabels : b.body.labels ⊆ b.names.taken) {names : Names}
    (hgrow : b.names.taken ⊆ names.taken) : Relabeled (Equiv.refl _) b { b with names } := by
  have hmatched : Matched (Equiv.refl _) b.body.labels b.names names :=
    ⟨hlabels, fun name hname => hgrow (hlabels hname)⟩
  have hbody : b.body.relabel (Equiv.refl String) = b.body := b.body.relabel_id
  simpa only [hbody] using Relabeled.mk hmatched

end Builder.Relabeled

namespace Edit

theorem same_performAll (xs : List Edit) (hxs : ∀ x ∈ xs, x.Marked)
    (h : Builder.Relabeled ρ b b') :
    (performAll xs b').1 = (performAll xs b).1 ∧
      ∃ σ : Equiv.Perm String, Builder.Relabeled σ (performAll xs b).2 (performAll xs b').2 := by
  induction xs generalizing ρ b b' with
  | nil => exact ⟨rfl, ρ, h⟩
  | cons x xs ih =>
    obtain ⟨hresult, σ, hσ⟩ := x.relabels_perform (hxs x List.mem_cons_self) ρ b b' h
    obtain ⟨hresults, hrest⟩ := ih (fun y hy => hxs y (List.mem_cons_of_mem _ hy)) hσ
    rw [performAll_cons, performAll_cons]
    exact ⟨congrArg₂ List.cons hresult hresults, hrest⟩

/-- An operation that fails leaves the statement as it was, but for names taken.  What is done
afterwards has the same results as without it, and comes to the same statement up to one renaming of
its parameters; unless a text made by hand brings a marker of its own. -/
theorem statement_after_failure (d : Dialect) (start : Start) (history later : List Edit)
    (failing : Edit) (e : Fault)
    (hfail : (failing.perform (performAll history (start.builder d)).2).1 = .error e) :
    let b := (performAll history (start.builder d)).2
    let b' := (failing.perform b).2
    b' = { b with names := b'.names } ∧
      ((∀ x ∈ history ++ later, x.Marked) →
        let final := (performAll later b).2
        let final' := (performAll later b').2
        (performAll later b').1 = (performAll later b).1 ∧
          ∃ ρ : Equiv.Perm String,
            final' = { final with body := final.body.relabel ρ, names := final'.names } ∧
            final'.build = final.build.relabel ρ ∧
            final'.toFragment = final.toFragment.relabel ρ) := by
  intro b b'
  have hkept : b.Kept (failing.perform b) := failing.atomic_perform b
  have hsame : b' = { b with names := b'.names } := hkept.unchanged e hfail
  refine ⟨hsame, ?_⟩
  intro hmarked final final'
  -- what led to the statement is run beside itself, to see that its names are taken
  obtain ⟨-, σ, hhistory⟩ := same_performAll history
    (fun x hx => hmarked x (List.mem_append_left _ hx))
    (.start d start : Builder.Relabeled (Equiv.refl _) _ _)
  have hstart : Builder.Relabeled (Equiv.refl _) b b' := by
    rw [hsame]
    exact .of_labels_subset hhistory.labels_subset hkept.taken
  obtain ⟨hresults, ρ, hfinal⟩ := same_performAll later
    (fun x hx => hmarked x (List.mem_append_right _ hx)) hstart
  exact ⟨hresults, ρ, hfinal.eq, hfinal.build_eq, hfinal.toFragment_eq⟩

theorem exists_error {r : Except Fault Unit} (h : r.isOk = false) : ∃ e, r = .error e := by
  cases r with
  | error e => exact ⟨e, rfl⟩
  | ok _ => cases h

/-- A template that claims a name for its first value and fails at its second, a list of one item in
a text with no marker for it. -/
def mismatched : Edit :=
  .append "AND id = :id AND note IN :notes" (.positional
    [.value (.varchar "a"), .wrapped ⟨[], .list [.varchar "b"] .varchar⟩])

/-- A template that binds a value of the same name. -/
def byId : Edit := .append "AND id = :id" (.positional [.value (.varchar "a")])

/-- A text made by hand, with a marker of its own in front of that of its value. -/
def handmade : Edit :=
  .append "AND :note" (.positional
    [.wrapped ⟨[.param "id", .text " = ", .slot], .scalar (.varchar "c")⟩])

/-- Without the failure the value is bound as `id`, and after it as `id1`. -/
theorem byId_after_mismatched :
    let b := Start.blank.builder .sqlite
    let b' := (mismatched.perform b).2
    (∃ e, (mismatched.perform b).1 = .error e) ∧
      (performAll [byId] b).2.body.names = ["id"] ∧ (performAll [byId] b').2.body.names = ["id1"] ∧
      ∃ ρ : Equiv.Perm String,
        (performAll [byId] b').2.build = (performAll [byId] b).2.build.relabel ρ := by
  have hresult : (mismatched.perform (performAll [] (Start.blank.builder .sqlite)).2).1.isOk =
      false := by decide +kernel
  obtain ⟨e, hfail⟩ := exists_error hresult
  have hmarked : ∀ x ∈ [] ++ [byId], x.Marked := by
    intro x hx
    obtain rfl : x = byId := by simpa using hx
    intro w hw
    simp [Args.values] at hw
  obtain ⟨-, hafter⟩ := statement_after_failure .sqlite .blank [] [byId] mismatched _ hfail
  obtain ⟨-, ρ, -, hbuild, -⟩ := hafter hmarked
  exact ⟨⟨e, hfail⟩, by decide +kernel, by decide +kernel, ρ, hbuild⟩

/-- A marker made by hand stays as it is, and names the binding of before only where that was not
given another name. -/
theorem handmade_marker_after_failure :
    let b := Start.blank.builder .sqlite
    let b' := (mismatched.perform b).2
    (∃ e, (mismatched.perform b).1 = .error e) ∧
      (performAll [byId, handmade] b).1.map (·.isOk) = [true, true] ∧
      ¬ ∃ ρ : String → String,
        (performAll [byId, handmade] b').2.build =
          (performAll [byId, handmade] b).2.build.relabel ρ := by
  refine ⟨exists_error (by decide +kernel), by decide +kernel, ?_⟩
  rintro ⟨ρ, hbuild⟩
  have hmarkers := congrArg (fun f => Token.paramNames f.tokens) hbuild
  have hwithout : Token.paramNames (performAll [byId, handmade]
      (Start.blank.builder .sqlite)).2.build.tokens = ["id", "id", "note"] := by decide +kernel
  have hafter : Token.paramNames (performAll [byId, handmade]
      (mismatched.perform (Start.blank.builder .sqlite)).2).2.build.tokens =
        ["id1", "id", "note"] := by decide +kernel
  simp only [Fragment.tokens_relabel, Token.paramNames_relabel, hwithout, hafter, List.map_cons,
    List.cons.injEq] at hmarkers
  -- the one name would be renamed in two ways
  obtain ⟨hfirst, hsecond, -⟩ := hmarkers
  rw [← hsecond] at hfirst
  exact absurd hfirst (by decide)

end Edit

end BoundSql
