import BoundSql.Proofs.Expansion
import BoundSql.Proofs.Renaming
import BoundSql.Schema.Samples

/-!
# Every statement is bound

Whatever operations a statement is built by, and whichever of them fail, its bindings have different
names, each of its markers names one of them, and their names are taken, so that no later claim
finds them.  The invariant is `Builder.WellBound`; each operation keeps it
(`Operation.keeps_perform`), and so does a run.  Expanding a template never comes to a placeholder
without an argument.
-/

namespace BoundSql

/-! ### Operations -/

namespace Fragment

theorem eq_append_of_cutFilter? {ts before clause : List Token}
    (h : cutFilter? ts = some (before, clause)) : ts = before ++ .sentinel :: clause := by
  induction ts using cutFilter?.induct generalizing before clause with
  | case1 => simp [cutFilter?] at h
  | case2 t ts before' clause' hcut ih =>
    simp only [cutFilter?, hcut, Option.some.injEq, Prod.mk.injEq] at h
    obtain ⟨rfl, rfl⟩ := h
    simpa using ih hcut
  | case3 ts hcut ih =>
    simp only [cutFilter?, hcut, if_true, Option.some.injEq, Prod.mk.injEq] at h
    obtain ⟨rfl, rfl⟩ := h
    rfl
  | case4 t ts hcut ht ih => simp [cutFilter?, hcut, ht] at h

/-- Cutting the filter clause off moves the markers into two lists, and leaves the bindings. -/
theorem takeFilterClause_keeps (f : Fragment) :
    Token.paramNames f.takeFilterClause.2.tokens ++
        Token.paramNames (f.takeFilterClause.1.getD []) = Token.paramNames f.tokens ∧
      f.takeFilterClause.2.bindings = f.bindings := by
  unfold takeFilterClause
  split
  · next before clause hcut =>
    refine ⟨?_, rfl⟩
    rw [eq_append_of_cutFilter? hcut]
    simp
  · exact ⟨by simp, rfl⟩

theorem paramNames_editTokens? (edit : List String → List String) {ts us : List Token}
    (h : editTokens? edit ts = some us) : Token.paramNames us = Token.paramNames ts := by
  induction ts generalizing us with
  | nil => cases h
  | cons t ts ih =>
    have hrest : ∀ {t : Token}, (editTokens? edit ts).map (t :: ·) = some us →
        Token.paramNames us = Token.paramNames (t :: ts) := by
      intro t hmap
      obtain ⟨rest, hedit, rfl⟩ := Option.map_eq_some_iff.mp hmap
      cases t <;> simp [ih hedit]
    cases t with
    | text s =>
      simp only [editTokens?] at h
      split at h
      · cases h
        rfl
      · exact hrest h
    | _ => exact hrest h

theorem paramNames_trimFirst (ts : List Token) :
    Token.paramNames (trimFirst ts) = Token.paramNames ts := by
  unfold trimFirst
  split <;> simp

theorem paramNames_trimLast (ts : List Token) :
    Token.paramNames (trimLast ts) = Token.paramNames ts := by
  induction ts using trimLast.induct with
  | case1 => rfl
  | case2 s => simp [trimLast]
  | case3 t ts hlast ih =>
    rw [trimLast]
    · cases t <;> simp [ih]
    · exact hlast

theorem paramNames_sealed (f : Fragment) :
    Token.paramNames f.sealed.tokens = Token.paramNames f.tokens := by
  have hseal : ∀ ts : List Token,
      Token.paramNames (ts.map sealToken) = Token.paramNames ts := by
    intro ts
    induction ts with
    | nil => rfl
    | cons t ts ih => cases t <;> simp [sealToken, ih]
  rw [← hseal f.tokens]
  exact Token.paramNames_compact _

theorem paramNames_trim (f : Fragment) :
    Token.paramNames f.trim.tokens = Token.paramNames f.tokens := by
  unfold trim
  rw [Token.paramNames_filter_text, paramNames_trimLast, paramNames_trimFirst]

end Fragment

namespace Builder

/-- The statement binds each of its names once, its markers name its bindings, and their names are
taken. -/
def WellBound (b : Builder) : Prop := b.body.Claimed [] .none b.names

theorem WellBound.push {b : Builder} {f : Fragment} {names : Names} (hb : b.WellBound)
    (hf : f.Claimed [] b.names names) (hgrow : b.names.taken ⊆ names.taken) :
    WellBound { b with body := b.body ++ f, names } :=
  hb.append (hf.mono (List.nil_subset _)) (List.nil_subset _) hgrow

theorem WellBound.pushText {b : Builder} (hb : b.WellBound) (f : Fragment)
    (hbindings : f.bindings = []) (hmarkers : Token.paramNames f.tokens = []) :
    WellBound { b with body := b.body ++ f } := by
  have hf : f.Claimed [] b.names b.names := .of_unbound hbindings (by simp [hmarkers])
  exact hb.push hf (List.Subset.refl _)

/-- More names may be taken than the statement binds. -/
theorem WellBound.withNames {b : Builder} (hb : b.WellBound) {names : Names}
    (hgrow : b.names.taken ⊆ names.taken) : WellBound { b with names } :=
  { hb with taken := fun name hname => hgrow (hb.taken name hname) }

/-- Only the markers and the bindings of the body matter. -/
theorem WellBound.withBody {b : Builder} (hb : b.WellBound) {body : Fragment}
    (hmarkers : Token.paramNames body.tokens ⊆ Token.paramNames b.body.tokens)
    (hbindings : body.bindings = b.body.bindings) : WellBound { b with body } :=
  hb.congr hmarkers hbindings

/-- A bound statement can be put into another one. -/
theorem WellBound.toFragment {b : Builder} (hb : b.WellBound) : b.toFragment.Bound [] := by
  have hbuild : b.build.Claimed [] .none b.names := by
    unfold build
    split
    · exact hb.congr (by rw [Fragment.paramNames_trim]; simp) rfl
    · refine hb.congr ?_ ?_
      · rw [Fragment.paramNames_trim]
        simp
      · show b.body.bindings ++ [] = b.body.bindings
        exact List.append_nil _
  have hwhole : b.toFragment.Claimed [] .none b.names := by
    refine hbuild.congr ?_ rfl
    show Token.paramNames b.build.sealed.trim.tokens ⊆ _
    rw [Fragment.paramNames_trim, Fragment.paramNames_sealed]
    exact List.Subset.refl _
  exact hwhole.toBound

theorem wellBound_start (d : Dialect) (start : Start) : (start.builder d).WellBound := by
  cases start with
  | blank => exact .of_unbound rfl (List.Subset.refl _)
  | condition => exact .of_unbound rfl (List.Subset.refl _)

end Builder

namespace Building

/-- The operation leaves a bound statement bound, also where it fails. -/
def Keeps {α : Type} (c : Building α) : Prop := Along (fun b b' => b.WellBound → b'.WellBound) c

theorem Keeps.bind {α β : Type} {c : Building α} {k : α → Building β} (hc : Keeps c)
    (hk : ∀ a, Keeps (k a)) : Keeps (c >>= k) :=
  Along.bind (fun hfirst hsecond hb => hsecond (hfirst hb)) hc hk

theorem keeps_ofExcept {α : Type} (r : Except Fault α) : Keeps (ofExcept r) := fun _ hb => hb

/-- A computed fragment, and what is made of it and the statement. -/
theorem keeps_claiming_bind {α : Type} {c : Builder → Claiming Fragment}
    {k : Fragment → Building α}
    (hc : ∀ b, Claiming.Sound [] (c b))
    (hk : ∀ (b : Builder) f names, b.WellBound → f.Claimed [] b.names names →
      b.names.taken ⊆ names.taken → (k f { b with names }).2.WellBound) :
    Keeps (claiming c >>= k) := by
  intro b hb
  obtain ⟨hgrow, hclaimed⟩ := hc b b.names
  rw [bind_apply]
  simp only [claiming]
  rcases hrun : c b b.names with ⟨r, names⟩
  rw [hrun] at hgrow hclaimed
  cases r with
  | error e => exact hb.withNames hgrow
  | ok f => exact hk b f names hb (hclaimed f rfl) hgrow

theorem keeps_append (template : String) (args : Args)
    (hargs : ∀ resolved, resolve (Text.trim template)
        (Template.placeholders (Template.scan (Text.trim template))) args = .ok resolved →
      ∀ name w, resolved.lookup name = some (.wrapped w) → w.Proper) :
    Keeps (append template args) := by
  unfold append
  intro b hb
  rw [bind_apply]
  simp only [ofExcept]
  cases hresolve : resolve (Text.trim template)
      (Template.placeholders (Template.scan (Text.trim template))) args with
  | error e => exact hb
  | ok resolved =>
    have hpiece : ∀ b : Builder, Claiming.Sound []
        (expand resolved [] (Template.scan (Text.trim template))) := fun _ =>
      sound_expand resolved (hargs resolved hresolve) [] [] _ (by simp)
    refine keeps_claiming_bind hpiece ?_ b hb
    intro b f names hb hf hgrow
    exact hb.push (hf.congr (by simp) rfl) hgrow

theorem keeps_appendFormat (template : String) (args : List String) :
    Keeps (appendFormat template args) :=
  Keeps.bind (keeps_ofExcept _) fun text b hb => hb.pushText (.text (" " ++ text)) rfl (by simp)

theorem keeps_appendSubquery (head : String) (sub : Fragment) (hsub : sub.Bound []) :
    Keeps (appendSubquery head sub) := by
  refine keeps_claiming_bind ?_ ?_
  · intro b names
    refine ⟨sub.taken_subset_claimNames names, ?_⟩
    intro f hf
    obtain rfl : (sub.claimNames names).1 = f := by simpa using hf
    exact sub.claimed_claimNames hsub names
  · intro b f names hb hf hgrow
    exact hb.push (hf.congr (by simp) (by simp)) hgrow

theorem keeps_filter (n : Node) : Keeps (filter n) := by
  apply keeps_claiming_bind (fun b => b.dialect.sound_compile b.scope .filter n)
  intro b f names hb hf hgrow
  exact hb.push (hf.congr (by simp) (by simp)) hgrow

/-- The text of a column depends on the dialect and the alias of the statement and on nothing else,
and claims nothing. -/
theorem columnText_apply (qualified : Bool) (n : Node) (b : Builder) :
    columnText qualified n b =
      ((b.dialect.orderColumn ⟨qualified, b.tableAlias⟩ n .none).1.map b.dialect.render, b) := by
  unfold columnText
  rw [get_bind_apply, bind_apply]
  simp only [claiming, Dialect.compile, Dialect.orderColumn]
  cases n.column? <;> rfl

/-- What follows the text of a column goes on with the same statement. -/
theorem columnText_bind {α : Type} {qualified : Bool} {n : Node} {k : String → Building α}
    {b : Builder} (hb : b.WellBound) (hk : ∀ column, ((k column) b).2.WellBound) :
    ((columnText qualified n >>= k) b).2.WellBound := by
  rw [bind_apply, columnText_apply]
  cases (b.dialect.orderColumn ⟨qualified, b.tableAlias⟩ n .none).1 with
  | error e => exact hb
  | ok f => exact hk (b.dialect.render f)

theorem keeps_orderBy (direction : Direction) (n : Node) : Keeps (orderBy direction n) := by
  intro b hb
  unfold orderBy
  rw [get_bind_apply]
  exact columnText_bind hb fun _ => hb

theorem keeps_leftJoin (s : Schema) (tableAlias : String) (n : Node) :
    Keeps (leftJoin s tableAlias n) := by
  apply keeps_claiming_bind (fun b => b.dialect.sound_compile b.scope .join n)
  intro b f names hb hf hgrow
  obtain ⟨hmarkers, hbindings⟩ := b.body.takeFilterClause_keeps
  refine (hb.push hf hgrow).withBody ?_ ?_
  · intro name hname
    simp only [Fragment.pushTokens_tokens, Fragment.append_tokens, Token.paramNames_append,
      Fragment.text_tokens, Fragment.sentinel_tokens, Token.paramNames_compact,
      Token.paramNames_cons_text, Token.paramNames_cons_sentinel, Token.paramNames_nil,
      List.append_nil, List.mem_append] at hname ⊢
    rcases hname with (hname | hname) | hname
    · exact .inl (by rw [← hmarkers]; exact List.mem_append_left _ hname)
    · exact .inr hname
    · exact .inl (by rw [← hmarkers]; exact List.mem_append_right _ hname)
  · show (b.body.takeFilterClause.2.bindings ++ [] ++ f.bindings) ++ [] = _
    rw [hbindings, List.append_nil, List.append_nil]
    rfl

theorem keeps_selectJoin (source target : Node) : Keeps (selectJoin source target) := by
  intro b hb
  unfold selectJoin
  rw [get_bind_apply]
  apply columnText_bind hb
  intro source
  apply columnText_bind hb
  intro replaced
  apply columnText_bind hb
  intro label
  simp only [Fragment.editSelectList?]
  cases hedit : Fragment.editTokens? _ b.body.tokens with
  | none => exact hb
  | some tokens =>
    have hmarkers := Fragment.paramNames_editTokens? _ hedit
    have hedited : Builder.WellBound { b with body := { b.body with tokens } } :=
      hb.withBody (by rw [hmarkers]; exact List.Subset.refl _) rfl
    exact hedited

end Building

/-! ### Runs -/

/-- Statements that the operation puts into this one are bound themselves. -/
def Operation.SubsBound : Operation → Prop
  | appendSubquery _ sub => sub.Bound []
  | onlyIf _ op => op.SubsBound
  | _ => True

namespace Operation

/-- Each operation leaves a bound statement bound. -/
theorem keeps_perform (op : Operation) (hop : op.SubsBound) : Building.Keeps op.perform := by
  induction op with
  | withAlias tableAlias => exact fun b hb => hb
  | select s tableAlias =>
    intro b hb
    refine (hb.pushText (.text _) rfl (by simp)).pushText .sentinel rfl (by simp)
  | append template operands =>
    intro b hb
    refine Building.keeps_append template _ ?_ b hb
    intro resolved hresolved
    exact (operands.proper_args b.dialect).of_resolve hresolved
  | appendFormat template args => exact Building.keeps_appendFormat template args
  | appendSubquery head sub => exact Building.keeps_appendSubquery head sub hop
  | filter n => exact Building.keeps_filter n
  | leftJoin s tableAlias n => exact Building.keeps_leftJoin s tableAlias n
  | selectJoin source target => exact Building.keeps_selectJoin source target
  | orderBy direction n => exact Building.keeps_orderBy direction n
  | onlyIf condition op ih =>
    cases condition with
    | false => exact fun b hb => hb
    | true => exact ih hop

theorem wellBound_performAll (ops : List Operation) (hops : ∀ op ∈ ops, op.SubsBound)
    (b : Builder) (hb : b.WellBound) : (performAll ops b).2.WellBound := by
  induction ops generalizing b with
  | nil => exact hb
  | cons op ops ih =>
    refine ih (fun op hop => hops op (List.mem_cons_of_mem _ hop)) _ ?_
    exact keeps_perform op (hops op List.mem_cons_self) b hb

/-- Whatever operations a statement went through, failed ones among them: its bindings have
different names, each marker names exactly one of them, no later claim returns one of their names,
and no template it is given leaves a placeholder without an argument. -/
theorem markers_bound_after_operations (d : Dialect) (start : Start) (ops : List Operation)
    (hops : ∀ op ∈ ops, op.SubsBound) :
    let b := (performAll ops (start.builder d)).2
    b.body.names.Nodup ∧
      (∀ name, .param name ∈ b.body.tokens →
        ∃ x, b.body.bindings.filter (·.name = name) = [x]) ∧
      (∀ name ∈ b.body.names, name ∈ b.names.taken) ∧
      (∀ bases, ∀ name ∈ (b.names.claimAll bases).1, name ∉ b.body.names) ∧
      ∀ template args, Building.leavesUnresolved template args b = false := by
  intro b
  have hb : b.WellBound := wellBound_performAll ops hops _ (Builder.wellBound_start d start)
  refine ⟨hb.nodup, ?_, hb.taken, ?_, ?_⟩
  · intro name hname
    exact hb.toBound.exists_unique_binding hname
  · intro bases name hname hbound
    obtain ⟨-, -, hfree, -⟩ := b.names.claimAll_fresh bases
    exact hfree name hname (hb.taken name hbound)
  · intro template args
    exact Building.leavesUnresolved_eq_false template args b

/-- A statement to be put into another one. -/
def loggedNotes : List Operation :=
  [.append "SELECT note FROM log WHERE id = :id" (.positional [.value (.varchar "b")])]

/-- A statement whose second template lacks a value, and whose subquery has a marker of a name that
is taken. -/
def orderNotes : List Operation :=
  [.select Schema.order "t",
    .append "WHERE id = :id" (.named [("id", .value (.varchar "a"))]),
    .append "AND status = :status" (.positional []),
    .appendSubquery "AND note IN"
      (performAll loggedNotes (Start.blank.builder .sqlite)).2.toFragment,
    .append "AND customer IN :names OR customer IN :names"
      (.positional [.list [.varchar "c", .varchar "d"]])]

theorem markers_bound_in_orderNotes :
    let b := (performAll orderNotes (Start.blank.builder .sqlite)).2
    (∀ op ∈ orderNotes, op.SubsBound) ∧
      b.body.names = ["id", "id1", "inParam0", "inParam1"] ∧
      b.body.names.Nodup ∧
      (∀ name, .param name ∈ b.body.tokens →
        ∃ x, b.body.bindings.filter (·.name = name) = [x]) ∧
      (∀ name ∈ b.body.names, name ∈ b.names.taken) ∧
      (∀ bases, ∀ name ∈ (b.names.claimAll bases).1, name ∉ b.body.names) ∧
      ∀ template args, Building.leavesUnresolved template args b = false := by
  have hops : ∀ op ∈ orderNotes, op.SubsBound := by
    have hlogged : ∀ op ∈ loggedNotes, op.SubsBound := by simp [loggedNotes, SubsBound]
    have hsub := wellBound_performAll loggedNotes hlogged _ (Builder.wellBound_start .sqlite .blank)
    simpa [orderNotes, SubsBound] using hsub.toFragment
  exact ⟨hops, by decide +kernel,
    markers_bound_after_operations .sqlite .blank orderNotes hops⟩

end Operation

end BoundSql
