import BoundSql.Proofs.ConsecutiveTemplates
import BoundSql.Proofs.NewBindings

/-!
# Lists of values

A list becomes markers in parentheses, one for each of its values, wherever it stands: behind a
column, in a membership test, or for a placeholder of a template (`Dialect.list_expanded`).  The
markers ask for `inParam0`, `inParam1` and so on.  Those that are taken, by the statement or by a
marker further left in the same list, give way to others, so that no two values ever share a name.

A list made with `Dialect.forList` has as many markers as values.  Only a list whose text was made
otherwise can be refused for their number (`Building.mismatched_of_expand`).
-/

namespace BoundSql

/-! ### Fragments that list values -/

namespace Token

theorem compact_text_text (s u : String) (ts : List Token) :
    compact (.text s :: .text u :: ts) = compact (.text (s ++ u) :: ts) :=
  consText_consText s u (compact ts)

/-- Between markers and commas there is nothing to merge. -/
theorem compact_markers {head : String} (hhead : head ≠ "") {markers : List String}
    (hmarkers : markers ≠ []) :
    compact (.text head :: (markers.map param).intersperse (.text ",") ++ [.text ")"]) =
      .text head :: (markers.map param).intersperse (.text ",") ++ [.text ")"] := by
  obtain ⟨first, rest, rfl⟩ := List.exists_cons_of_ne_nil hmarkers
  have hrest : compact ((rest.map param).flatMap (fun t => [.text ",", t]) ++ [.text ")"]) =
      (rest.map param).flatMap (fun t => [.text ",", t]) ++ [.text ")"] := by
    induction rest with
    | nil => rfl
    | cons name rest ih =>
      simp only [List.map_cons, List.flatMap_cons, List.cons_append, List.nil_append, compact]
      rw [ih (List.cons_ne_nil _ _)]
      rfl
  simp only [List.map_cons, intersperse_cons, List.cons_append, compact]
  rw [hrest]
  simp [consText, hhead]

end Token

namespace Fragment

/-- Behind a text the fragment lists the values in parentheses.  Its markers name its bindings in
order, and these have the values in order.  The names are those claimed one after the other, each of
them another one that was free. -/
structure Lists (head : String) (vs : List Value) (before after : Names) (f : Fragment) : Prop where
  tokens : f.tokens =
    .text (head ++ "(") :: (f.names.map Token.param).intersperse (.text ",") ++ [.text ")"]
  values : f.bindings.map Binding.value = vs
  claimed : before.claimAll (Dialect.listNames 0 vs.length) = (f.names, after)
  nodup : f.names.Nodup
  free : ∀ name ∈ f.names, name ∉ before.taken
  taken : ∀ name ∈ f.names, name ∈ after.taken

variable {head : String} {vs : List Value} {before after : Names} {f : Fragment}

/-- What stands in front of a list is kept; a text there goes on with the text in front of the
list. -/
theorem Lists.kept_append (hf : f.Lists head vs before after) (g : Fragment) :
    Token.Kept g.tokens (g ++ f).tokens := by
  rw [append_tokens, hf.tokens]
  exact Token.kept_append_text (by simp) _ _

theorem Lists.names_ne_nil (hf : f.Lists head vs before after) (hvs : vs ≠ []) : f.names ≠ [] := by
  intro hnone
  apply hvs
  rw [← hf.values, List.map_eq_nil_iff.mp hnone]
  rfl

/-- A text in front of a list. -/
theorem Lists.text_append (hf : f.Lists "" vs before after) (hvs : vs ≠ []) (s : String) :
    (Fragment.text s ++ f).Lists s vs before after := by
  have hnames : (Fragment.text s ++ f).names = f.names := by simp
  have htokens : (Fragment.text s ++ f).tokens =
      .text (s ++ "(") :: (f.names.map Token.param).intersperse (.text ",") ++ [.text ")"] := by
    rw [append_tokens, text_tokens, Token.append_compact, hf.tokens, String.empty_append,
      List.singleton_append, List.cons_append, Token.compact_text_text]
    exact Token.compact_markers (by simp) (hf.names_ne_nil hvs)
  rw [← hnames] at htokens
  refine ⟨htokens, hf.values, ?_, ?_, ?_, ?_⟩
  · rw [hnames]
    exact hf.claimed
  · rw [hnames]
    exact hf.nodup
  · rw [hnames]
    exact hf.free
  · rw [hnames]
    exact hf.taken

end Fragment

/-- Whatever names are taken, a list that is not empty is listed. -/
theorem Dialect.lists_forList (d : Dialect) {vs : List Value} (hvs : vs ≠ []) (name : String)
    (names : Names) :
    ∃ f after, (d.forList vs).splice name names = (.ok f, after) ∧ f.Lists "" vs names after := by
  obtain ⟨bindings, hnames, hvalues, hrun⟩ := WrappedValue.splice_forList d name vs names
  obtain ⟨-, hnodup, hfree, htaken, -⟩ := names.claimAll_fresh (listNames 0 vs.length)
  rw [← hnames] at hnodup hfree htaken
  have hsome : bindings.map Binding.name ≠ [] := by
    intro hnone
    rw [List.map_eq_nil_iff] at hnone
    exact hvs (by rw [← hvalues, hnone, List.map_nil])
  refine ⟨_, _, hrun, ?_, hvalues, Prod.ext hnames.symm rfl, hnodup, hfree, htaken⟩
  have hparen : "(" ≠ "" := by decide
  exact Token.compact_markers hparen hsome

/-! ### Membership tests -/

namespace Node

/-- What has a value is no column. -/
theorem column?_of_evaluate {n : Node} {v : Value} (h : n.evaluate = .ok v) : n.column? = none := by
  induction n using column?.induct with
  | case1 column tableAlias => cases h
  | case2 n ih => exact ih h
  | case3 n hmember hconvert =>
    cases n with
    | member column tableAlias => cases h
    | convert n => exact (hconvert n rfl).elim
    | _ => rfl

/-- The test whether a column is among the values of a list, or that it is not. -/
def among (negated : Bool) (receiver arg : Node) : Node :=
  if negated then .unary .not (.call .contains receiver [arg]) else .call .contains receiver [arg]

end Node

theorem Dialect.compile_among (d : Dialect) (scope : Scope) (negated : Bool) {receiver arg : Node}
    {vs : List Value} {item : SqlType} {c : ColumnRef × Option String} (hvs : vs ≠ [])
    (hreceiver : receiver.evaluate = .ok (.list vs item)) (hcolumn : arg.column? = some c)
    (names : Names) :
    ∃ f after, d.compile scope .filter (.among negated receiver arg) names = (.ok f, after) ∧
      f.Lists (d.columnText scope c ++ if negated then " NOT IN " else " IN ") vs names after := by
  have hcall : d.compile scope .filter (.among negated receiver arg) =
      d.membership scope negated receiver arg := by
    have hnone := Node.column?_of_evaluate hreceiver
    cases negated <;>
      simp [compile, Node.among, condition, callCondition, hnone]
  obtain ⟨list, after, hlist, hf⟩ := d.lists_forList hvs c.1.field names
  obtain ⟨v, vs, rfl⟩ := List.exists_cons_of_ne_nil hvs
  refine ⟨_, after, ?_, hf.text_append hvs _⟩
  simp only [hcall, membership, hcolumn, hreceiver]
  rw [bind_apply, Claiming.ofExcept_apply]
  dsimp only
  rw [bind_apply, hlist]
  rfl

/-! ### Templates -/

/-- A list whose text has another number of markers than it has items, which is refused when it is
put for a placeholder. -/
def WrappedValue.Mismatched (name : String) (w : WrappedValue) (e : Fault) : Prop :=
  ∃ items item, w.value = .list items item ∧ w.markers.length ≠ items.length ∧
    e = .count (.markers name w.markers.length items.length)

theorem Dialect.not_mismatched_forList (d : Dialect) (vs : List Value) (name : String) (e : Fault) :
    ¬ (d.forList vs).Mismatched name e := by
  rintro ⟨items, item, hvalue, hlength, -⟩
  cases hvalue
  apply hlength
  simp [forList, WrappedValue.markers, paramNames_listMarkers, listNames]

namespace Building

open Claiming

variable {resolved : List (String × Arg)} {written : List (String × List Token)}
  {front back : List Token} {names after : Names}

/-- A placeholder is refused for the number of markers and for nothing else. -/
theorem mismatched_of_place {name : String} {arg : Option Arg} {e : Fault}
    (h : (place name arg names).1 = .error e) :
    ∃ w, arg = some (.wrapped w) ∧ w.Mismatched name e := by
  cases arg with
  | none => cases h
  | some arg =>
    cases arg with
    | value v => cases h
    | wrapped w =>
      refine ⟨w, rfl, ?_⟩
      simp only [place, WrappedValue.splice] at h
      split at h
      · next items item hvalue =>
        split at h
        · cases h
        · next hlength =>
          cases h
          exact ⟨items, item, hvalue, hlength, rfl⟩
      · cases h

theorem mismatched_of_expand {ts : List Token} {e : Fault}
    (h : (expand resolved written ts names).1 = .error e) :
    ∃ name w, resolved.lookup name = some (.wrapped w) ∧ w.Mismatched name e := by
  have hbehind : ∀ {c : Claiming Fragment} {g : Fragment} {names : Names},
      ((c >>= fun rest => pure (g ++ rest)) names).1 = .error e → (c names).1 = .error e := by
    intro c g names h
    rw [bind_apply] at h
    rcases hrun : c names with ⟨r, after⟩
    rw [hrun] at h
    cases r with
    | error e' => exact h
    | ok f => cases h
  induction written, ts using expand.induct generalizing names with
  | case1 written => cases h
  | case2 written name ts tokens hname ih =>
    simp only [expand, hname] at h
    exact ih (hbehind h)
  | case3 written name ts hname ih =>
    simp only [expand, hname] at h
    rw [bind_apply] at h
    rcases hrun : place name (resolved.lookup name) names with ⟨r, after⟩
    rw [hrun] at h
    cases r with
    | error e' =>
      cases h
      obtain ⟨w, hw, hmismatched⟩ := mismatched_of_place (congrArg Prod.fst hrun)
      exact ⟨name, w, hw, hmismatched⟩
    | ok value => exact ih value (hbehind h)
  | case4 written t ts ht ih =>
    rw [expand_cons ht] at h
    exact ih (hbehind h)

/-- Behind the first computation, which has left a table with the property, the tokens are expanded
with that table. -/
def Halves (resolved : List (String × Arg)) (us : List Token) (c : Claiming Fragment)
    (P : List (String × List Token) → Prop) (names after : Names) (piece : Fragment) : Prop :=
  ∃ f middle table g, c names = (.ok f, middle) ∧
    expand resolved table us middle = (.ok g, after) ∧ piece = f ++ g ∧ P table

theorem Halves.behind {us : List Token} {c : Claiming Fragment}
    {P : List (String × List Token) → Prop} {first rest : Fragment} (hfirst : first.Merged)
    (hc : Yields Fragment.Merged c) (h : Halves resolved us c P names after rest) :
    Halves resolved us (c >>= fun rest => pure (first ++ rest)) P names after (first ++ rest) := by
  obtain ⟨f, middle, table, g, hf, hg, rfl, htable⟩ := h
  refine ⟨first ++ f, middle, table, g, ?_, hg, ?_, htable⟩
  · rw [bind_apply, hf]
    rfl
  · rw [hfirst.append_assoc (hc names f (congrArg Prod.fst hf))]

/-- Tokens can be expanded in two parts.  Only placeholders of the first part are written by then. -/
theorem halves_of_expand_append {ts us : List Token} {piece : Fragment}
    (h : expand resolved written (ts ++ us) names = (.ok piece, after)) :
    Halves resolved us (expand resolved written ts)
      (fun table => ∀ name ∉ Token.paramNames ts, table.lookup name = written.lookup name)
      names after piece := by
  induction written, ts using expand.induct generalizing names piece with
  | case1 written =>
    refine ⟨.empty, names, written, piece, rfl, h, ?_, fun _ _ => rfl⟩
    exact (merged_expand resolved written us names piece (congrArg Prod.fst h)).empty_append.symm
  | case2 written name ts tokens hname ih =>
    simp only [List.cons_append, expand, hname] at h ⊢
    obtain ⟨rest, middle, hrest, hpiece⟩ := of_bind_ok h
    cases hpiece
    refine Halves.behind (Fragment.merged_pushTokens _) (merged_expand _ _ _) ?_
    obtain ⟨f, middle, table, g, hf, hg, hsame, htable⟩ := ih hrest
    exact ⟨f, middle, table, g, hf, hg, hsame,
      fun other hother => htable other fun hmem => hother (List.mem_cons_of_mem _ hmem)⟩
  | case3 written name ts hname ih =>
    simp only [List.cons_append, expand, hname] at h ⊢
    obtain ⟨value, middle, hvalue, h⟩ := of_bind_ok h
    obtain ⟨rest, final, hrest, hpiece⟩ := of_bind_ok h
    cases hpiece
    have hmerged : value.Merged := merged_place name _ names value (congrArg Prod.fst hvalue)
    obtain ⟨f, middle', table, g, hf, hg, hsame, htable⟩ :=
      (ih value hrest).behind hmerged (merged_expand _ _ _)
    refine ⟨f, middle', table, g, ?_, hg, hsame, ?_⟩
    · rw [bind_apply, hvalue]
      exact hf
    · intro other hother
      rw [htable other fun hmem => hother (List.mem_cons_of_mem _ hmem)]
      exact lookup_cons_of_ne _ fun heq => hother (heq ▸ List.mem_cons_self)
  | case4 written t ts ht ih =>
    rw [List.cons_append, expand_cons ht] at h
    rw [expand_cons ht, Token.paramNames_cons_of_ne ht]
    obtain ⟨rest, middle, hrest, hpiece⟩ := of_bind_ok h
    cases hpiece
    exact (ih hrest).behind (Fragment.merged_pushTokens _) (merged_expand _ _ _)

/-- Appending a template has put the list for a placeholder behind what the tokens in front of it
have become, and that behind the statement there was.  Where the placeholder comes again, the tokens
of the list come again. -/
structure Listed (resolved : List (String × Arg)) (front : List Token) (name : String)
    (back : List Token) (vs : List Value) (b b' : Builder) (earlier list later : Fragment)
    (middle after : Names) : Prop where
  expanded : expand resolved [] front b.names = (.ok earlier, middle)
  known : b.names.taken ⊆ middle.taken
  lists : list.Lists "" vs middle after
  kept : after.taken ⊆ b'.names.taken
  again : ∃ table, table.lookup name = some list.tokens ∧
    expand resolved table back after = (.ok later, b'.names)
  tokens : b'.body.tokens = Token.append (Token.append b.body.tokens
    (.text " " :: earlier.tokens)) (list.tokens ++ later.tokens)
  before : Token.Kept (Token.append b.body.tokens (.text " " :: earlier.tokens)) b'.body.tokens
  bindings : b'.body.bindings =
    b.body.bindings ++ earlier.bindings ++ list.bindings ++ later.bindings

theorem listed_of_append (d : Dialect) {vs : List Value} (hvs : vs ≠ []) {b b' : Builder}
    {template : String} {args : Args} {name : String}
    (hresolve : resolve (Text.trim template)
      (Template.placeholders (Template.scan (Text.trim template))) args = .ok resolved)
    (hscan : Template.scan (Text.trim template) = front ++ .param name :: back)
    (hfirst : name ∉ Token.paramNames front)
    (hname : resolved.lookup name = some (.wrapped (d.forList vs)))
    (h : append template args b = (.ok (), b')) :
    ∃ earlier list later middle after,
      Listed resolved front name back vs b b' earlier list later middle after := by
  obtain ⟨piece, names, hrun, rfl⟩ := of_append_ok hresolve h
  rw [hscan] at hrun
  obtain ⟨earlier, middle, table, g, hearlier, hg, rfl, htable⟩ := halves_of_expand_append hrun
  have hnone : table.lookup name = none := htable name hfirst
  simp only [expand, hnone, hname] at hg
  obtain ⟨list, after, hlist, hg⟩ := of_bind_ok hg
  obtain ⟨later, final, hlater, hpiece⟩ := of_bind_ok hg
  cases hpiece
  obtain ⟨list', after', hsplice, hlists⟩ := d.lists_forList hvs name middle
  obtain ⟨rfl, rfl⟩ : list = list' ∧ after = after' := by
    have hplace : (Except.ok list, after) = (Except.ok list', after') := hlist.symm.trans hsplice
    simpa using hplace
  have hmerged : earlier.Merged :=
    merged_expand resolved [] front b.names earlier (congrArg Prod.fst hearlier)
  have hmerged' : list.Merged :=
    WrappedValue.merged_splice name _ middle list (congrArg Prod.fst hsplice)
  have hspace : Token.compact (.text " " :: earlier.tokens) ≠ [] :=
    Token.consText_ne_nil (by decide) _
  have htokens : Token.append b.body.tokens (.text " " ++ (earlier ++ (list ++ later))).tokens =
      Token.append (Token.append b.body.tokens (.text " " :: earlier.tokens))
        (list.tokens ++ later.tokens) := by
    rw [Token.append_append hspace]
    simp only [Fragment.append_tokens, Fragment.text_tokens, hmerged.append_tokens_eq,
      hmerged'.append_tokens_eq, Token.append_compact, Token.append_compact_right,
      Token.compact_append_compact, List.nil_append, List.cons_append]
  refine ⟨earlier, list, later, middle, after, hearlier, ?_, hlists, ?_,
    ⟨_, List.lookup_cons_self, hlater⟩, htokens, ?_, by simp⟩
  · have hgrow := (fresh_expand resolved [] front b.names).1
    rwa [hearlier] at hgrow
  · have hgrow := (fresh_expand resolved ((name, list.tokens) :: table) back after).1
    rwa [hlater] at hgrow
  · rw [Fragment.append_tokens, htokens, hlists.tokens]
    exact Token.kept_append_text (by decide) _ _

end Building

open Building

/-- A list that is not empty becomes as many markers in parentheses as it has values, in a
membership test, in its negation and for a placeholder, whatever names are taken.  What was written
before stays, but for a text that goes on with the parenthesis.  A template is refused only for
lists that were not made with `forList`. -/
theorem Dialect.list_expanded (d : Dialect) {vs : List Value} (hvs : vs ≠ []) :
    (∀ (scope : Scope) (negated : Bool) (receiver arg : Node) (item : SqlType)
        (c : ColumnRef × Option String) (names : Names),
      receiver.evaluate = .ok (.list vs item) → arg.column? = some c →
        ∃ f after, d.compile scope .filter (.among negated receiver arg) names = (.ok f, after) ∧
          f.Lists (d.columnText scope c ++ if negated then " NOT IN " else " IN ") vs names after ∧
          ∀ g : Fragment, Token.Kept g.tokens (g ++ f).tokens) ∧
      (∀ (name : String) (names : Names),
        ∃ f after, (d.forList vs).splice name names = (.ok f, after) ∧ f.Lists "" vs names after ∧
          ∀ g : Fragment, Token.Kept g.tokens (g ++ f).tokens) ∧
      (∀ (us : List Value) (name : String) (names : Names) (e : Fault),
        ((d.forList us).splice name names).1 ≠ .error e) ∧
      ∀ (b : Builder) (template : String) (args : Args) (resolved : List (String × Arg)),
        resolve (Text.trim template)
          (Template.placeholders (Template.scan (Text.trim template))) args = .ok resolved →
        (∀ e, (append template args b).1 = .error e →
          ∃ name w, resolved.lookup name = some (.wrapped w) ∧ w.Mismatched name e ∧
            ∀ us, w ≠ d.forList us) ∧
        ∀ (name : String) (front back : List Token) (b' : Builder),
          Template.scan (Text.trim template) = front ++ .param name :: back →
          name ∉ Token.paramNames front →
          resolved.lookup name = some (.wrapped (d.forList vs)) →
          append template args b = (.ok (), b') →
          ∃ earlier list later middle after,
            Listed resolved front name back vs b b' earlier list later middle after := by
  refine ⟨?_, ?_, ?_, ?_⟩
  · intro scope negated receiver arg item c names hreceiver hcolumn
    obtain ⟨f, after, hrun, hf⟩ := d.compile_among scope negated hvs hreceiver hcolumn names
    exact ⟨f, after, hrun, hf, hf.kept_append⟩
  · intro name names
    obtain ⟨f, after, hrun, hf⟩ := d.lists_forList hvs name names
    exact ⟨f, after, hrun, hf, hf.kept_append⟩
  · intro us name names e h
    obtain ⟨bindings, -, -, hrun⟩ := WrappedValue.splice_forList d name us names
    rw [hrun] at h
    cases h
  · intro b template args resolved hresolve
    constructor
    · intro e h
      rw [append_of_resolve hresolve] at h
      rcases hrun : expand resolved [] (Template.scan (Text.trim template)) b.names with ⟨r, names⟩
      rw [hrun] at h
      cases r with
      | ok piece => cases h
      | error e' =>
        cases h
        obtain ⟨name, w, hw, hmismatched⟩ := mismatched_of_expand (congrArg Prod.fst hrun)
        refine ⟨name, w, hw, hmismatched, ?_⟩
        rintro us rfl
        exact d.not_mismatched_forList us name e hmismatched
    · intro name front back b' hscan hfirst hname h
      exact listed_of_append d hvs hresolve hscan hfirst hname h

/-- `inParam1` is taken, so it gives way to `inParam11`, which in turn is taken when the last of the
twelve values asks for it. -/
theorem Dialect.list_expanded_twelve :
    let vs : List Value := List.replicate 12 (.varchar "a")
    let names : Names := ⟨["inParam1"], []⟩
    let markers := ["inParam0", "inParam11", "inParam2", "inParam3", "inParam4", "inParam5",
      "inParam6", "inParam7", "inParam8", "inParam9", "inParam10", "inParam111"]
    let test : Node :=
      .among true (.constant (.list vs .unknown)) (.member ⟨"id", "id", "customer"⟩ none)
    let b : Builder := { Builder.new .sqlite with names }
    vs ≠ [] ∧
      (∃ f after, Dialect.sqlite.compile ⟨true, "t"⟩ .filter test names = (.ok f, after) ∧
        f.names = markers ∧ f.bindings.map Binding.value = vs ∧
        f.tokens = .text "t.\x60id\x60 NOT IN (" ::
          (markers.map Token.param).intersperse (.text ",") ++ [.text ")"]) ∧
      ∃ b', append "id IN @ids" (.positional [.wrapped (Dialect.sqlite.forList vs)]) b =
          (.ok (), b') ∧
        b'.body.bindings.map Binding.name = markers ∧ b'.body.bindings.map Binding.value = vs := by
  intro vs names markers test b
  have hvs : vs ≠ [] := by simp [vs]
  obtain ⟨htest, -, -, htemplate⟩ := Dialect.sqlite.list_expanded hvs
  have hclaims : (names.claimAll (listNames 0 12)).1 = markers := by decide +kernel
  refine ⟨hvs, ?_, ?_⟩
  · obtain ⟨f, after, hrun, hf, -⟩ := htest ⟨true, "t"⟩ true (.constant (.list vs .unknown))
      (.member ⟨"id", "id", "customer"⟩ none) .unknown _ names rfl rfl
    have hmarkers : f.names = markers := (congrArg Prod.fst hf.claimed).symm.trans hclaims
    refine ⟨f, after, hrun, hmarkers, hf.values, ?_⟩
    have htokens := hf.tokens
    rw [hmarkers] at htokens
    exact htokens
  · have hscan : Template.scan (Text.trim "id IN @ids") = [.text "id IN ", .param "ids"] := by
      decide +kernel
    have hresolve : resolve (Text.trim "id IN @ids")
        (Template.placeholders (Template.scan (Text.trim "id IN @ids")))
        (.positional [.wrapped (Dialect.sqlite.forList vs)]) =
        .ok [("ids", .wrapped (Dialect.sqlite.forList vs))] := by
      rw [hscan]
      rfl
    obtain ⟨hfault, hlisted⟩ := htemplate b _ _ _ hresolve
    rcases happend : append "id IN @ids" (.positional [.wrapped (Dialect.sqlite.forList vs)]) b
      with ⟨r, b'⟩
    cases r with
    | error e =>
      obtain ⟨name, w, hw, -, hforeign⟩ := hfault e (congrArg Prod.fst happend)
      have hfound : name = "ids" ∧ w = Dialect.sqlite.forList vs := by
        simpa using mem_of_lookup hw
      exact (hforeign vs hfound.2).elim
    | ok u =>
      obtain ⟨earlier, list, later, middle, after, hlist⟩ :=
        hlisted "ids" [.text "id IN "] [] b' hscan (by simp) rfl happend
      obtain ⟨table, -, hlater⟩ := hlist.again
      cases hlater
      cases hlist.expanded
      have hbindings : b'.body.bindings = list.bindings := by
        simpa [b, Builder.new] using hlist.bindings
      refine ⟨b', rfl, ?_, ?_⟩
      · rw [hbindings]
        exact (congrArg Prod.fst hlist.lists.claimed).symm.trans hclaims
      · rw [hbindings]
        exact hlist.lists.values

end BoundSql
