import BoundSql.Proofs.Expansion
import BoundSql.Proofs.ListExpansion

/-!
# Slots that are left

Appending a template writes something for each of its placeholders, the same wherever one comes
again (`Building.substituted_of_expand`).  A value is written as a marker, a value with text around
it as the text with a marker in each slot, and a list of the dialect as markers in parentheses; each
of these markers stands for a value that is bound (`Operand.written_of_place`).

A list that is given as one value with text around it has no markers to bind its items to, so it is
refused unless it has no items.  Without items it passes: nothing is bound, and the text is written
as it is, its slots among the tokens of the statement.  Nothing else leaves a slot
(`Building.append_written`).
-/

namespace BoundSql

open Token (compact paramNames)

namespace WrappedValue

theorem slot_not_mem_map_fillSlot (marker : String) (template : List Token) :
    Token.slot ∉ template.map (fillSlot marker) := by
  intro hslot
  obtain ⟨t, -, ht⟩ := List.mem_map.mp hslot
  cases t <;> cases ht

/-- The text of a value has a slot between each two pieces. -/
theorem count_slot_wrapped (template : String) (v : Value) :
    (wrapped template v).template.count .slot = Text.occurrences template slotText := by
  have hbetween : ∀ pieces : List (List Char),
      ((pieces.map Template.textOf).intersperse .slot).count .slot = pieces.length - 1 := by
    intro pieces
    induction pieces with
    | nil => rfl
    | cons piece pieces ih =>
      cases pieces with
      | nil => rfl
      | cons next pieces =>
        rw [List.map_cons, List.map_cons, List.intersperse_cons_cons,
          List.count_cons_of_ne (by simp [Template.textOf]), List.count_cons_self,
          ← List.map_cons, ih]
        rfl
  unfold wrapped Text.occurrences
  rw [List.count_filter (by decide), hbetween]

theorem slot_mem_wrapped (template : String) (v : Value) :
    Token.slot ∈ (wrapped template v).template ↔ 0 < Text.occurrences template slotText := by
  rw [← List.count_pos_iff, count_slot_wrapped]

theorem bindMarkers_nil (names : Names) (ts : List Token) :
    bindMarkers names ts [] = ((ts, []), names) := by
  induction ts with
  | nil => rfl
  | cons t ts ih => cases t <;> simp only [bindMarkers, ih]

variable {w : WrappedValue} {name : String} {names after : Names} {f : Fragment}

/-- A text without markers is given a marker in each slot, but no list with items, and one without
items leaves it as it is. -/
theorem of_splice_ok (hmarkers : w.markers = []) (h : w.splice name names = (.ok f, after)) :
    (∃ item, w.value = .list [] item ∧ f = ⟨compact w.template, []⟩) ∨
      (∀ items item, w.value ≠ .list items item) ∧
        ∃ marker, f = ⟨compact (w.template.map (fillSlot marker)), [⟨marker, w.value⟩]⟩ := by
  unfold splice at h
  split at h
  · next items item hvalue =>
    left
    split at h
    · next hlength =>
      rw [hmarkers] at hlength
      obtain rfl : items = [] := List.eq_nil_of_length_eq_zero hlength.symm
      rw [bindMarkers_nil] at h
      cases h
      exact ⟨item, hvalue, rfl⟩
    · cases h
  · next hscalar =>
    right
    cases h
    exact ⟨hscalar, _, rfl⟩

end WrappedValue

namespace Operand

variable {d : Dialect} {x : Operand}

/-- Whether slots are left where the operand is put for a placeholder. -/
def LeavesSlot : Operand → Prop
  | bound v => ∃ item, v = .list [] item
  | wrapped template v =>
    0 < Text.occurrences template WrappedValue.slotText ∧ ∃ item, v = .list [] item
  | _ => False

/-- What is written for an operand, where its values are among the bindings. -/
inductive Written (d : Dialect) (bindings : List Binding) : Operand → List Token → Prop where
  /-- A value is written as a marker for it. -/
  | marker {y : Binding} (hy : y ∈ bindings) : Written d bindings (.value y.value) [.param y.name]
  /-- A value with text around it is written as the text with markers for it. -/
  | filled {x : Operand} {template : List Token} {y : Binding}
    (hx : x.arg d = .wrapped ⟨template, y.value⟩) (hscalar : ∀ items item, y.value ≠ .list items item)
    (hy : y ∈ bindings) :
    Written d bindings x (compact (template.map (WrappedValue.fillSlot y.name)))
  /-- A list is written as markers for its values, with commas between them. -/
  | listed {ys : List Binding} (hys : ys ⊆ bindings) :
    Written d bindings (.list (ys.map (·.value))) (compact
      (.text "(" :: ((ys.map (·.name)).map Token.param).intersperse (.text ",") ++ [.text ")"]))
  /-- A list without items and with text around it is written as the text. -/
  | unfilled {x : Operand} {template : List Token} {item : SqlType}
    (hx : x.arg d = .wrapped ⟨template, .list [] item⟩) : Written d bindings x (compact template)

theorem Written.mono {bindings more : List Binding} {ts : List Token} (h : Written d bindings x ts)
    (hsub : bindings ⊆ more) : Written d more x ts := by
  cases h with
  | marker hy => exact .marker (hsub hy)
  | filled hx hscalar hy => exact .filled hx hscalar (hsub hy)
  | listed hys => exact .listed (List.Subset.trans hys hsub)
  | unfilled hx => exact .unfilled hx

/-- Only lists of the dialect have markers in their texts. -/
theorem markers_eq_nil {w : WrappedValue} (hlist : ∀ values, x ≠ .list values)
    (hw : x.arg d = .wrapped w) : w.markers = [] := by
  cases x with
  | value v => cases hw
  | bound v =>
    cases hw
    rfl
  | wrapped template v =>
    cases hw
    exact WrappedValue.markers_wrapped template v
  | pattern method s =>
    cases hw
    cases method <;> rfl
  | timestamp t =>
    cases hw
    exact WrappedValue.markers_wrapped _ _
  | list values => exact (hlist values rfl).elim

/-- The operands that leave slots are those that make a text with slots around a list without
items. -/
theorem leavesSlot_iff (d : Dialect) (x : Operand) :
    x.LeavesSlot ↔
      ∃ template item, x.arg d = .wrapped ⟨template, .list [] item⟩ ∧ .slot ∈ template := by
  cases x with
  | value v => simp [LeavesSlot, arg]
  | bound v =>
    constructor
    · rintro ⟨item, rfl⟩
      exact ⟨_, item, rfl, List.mem_singleton_self _⟩
    · rintro ⟨template, item, hx, -⟩
      cases hx
      exact ⟨item, rfl⟩
  | wrapped template v =>
    show 0 < _ ∧ _ ↔ _
    rw [← WrappedValue.slot_mem_wrapped template v]
    constructor
    · rintro ⟨hslot, item, rfl⟩
      exact ⟨_, item, rfl, hslot⟩
    · rintro ⟨tokens, item, hx, hslot⟩
      cases hx
      exact ⟨hslot, item, rfl⟩
  | pattern method s =>
    constructor
    · exact False.elim
    · rintro ⟨template, item, hx, -⟩
      cases method <;> cases hx
  | timestamp t =>
    constructor
    · exact False.elim
    · rintro ⟨template, item, hx, -⟩
      cases hx
  | list values =>
    constructor
    · exact False.elim
    · rintro ⟨template, item, hx, hslot⟩
      cases hx
      simp [Dialect.listMarkers] at hslot

/-- A slot is left in what is written for the operands that leave one, and for no others. -/
theorem Written.slot_mem {bindings : List Binding} {ts : List Token} (h : Written d bindings x ts) :
    .slot ∈ ts ↔ x.LeavesSlot := by
  have hnotext : ∀ s, Token.slot ≠ .text s := by simp
  cases h with
  | marker hy => simp [LeavesSlot]
  | filled hx hscalar hy =>
    rw [Token.mem_compact hnotext, leavesSlot_iff d]
    refine iff_of_false (WrappedValue.slot_not_mem_map_fillSlot _ _) ?_
    rintro ⟨template, item, hx', -⟩
    have hvalue := congrArg WrappedValue.value (Arg.wrapped.inj (hx.symm.trans hx'))
    exact hscalar _ _ hvalue
  | @listed ys hys =>
    rw [Token.mem_compact hnotext]
    refine iff_of_false ?_ False.elim
    cases ys with
    | nil => simp
    | cons y ys => simp [Token.intersperse_cons]
  | @unfilled _ template item hx =>
    rw [Token.mem_compact hnotext, leavesSlot_iff d]
    constructor
    · intro hslot
      exact ⟨template, item, hx, hslot⟩
    · rintro ⟨other, item', hx', hslot⟩
      obtain rfl : template = other :=
        congrArg WrappedValue.template (Arg.wrapped.inj (hx.symm.trans hx'))
      exact hslot

/-- Where an operand is put for a placeholder, it is written, and its values are bound. -/
theorem written_of_place {name : String} {names after : Names} {f : Fragment}
    (h : Building.place name (some (x.arg d)) names = (.ok f, after)) :
    Written d f.bindings x f.tokens := by
  have hsplice : ∀ w, (∀ values, x ≠ .list values) → x.arg d = .wrapped w →
      Written d f.bindings x f.tokens := by
    intro w hlist hw
    rw [hw] at h
    rcases WrappedValue.of_splice_ok (markers_eq_nil hlist hw) h with
      ⟨item, hvalue, rfl⟩ | ⟨hscalar, marker, rfl⟩
    · obtain ⟨template, value⟩ := w
      obtain rfl : value = .list [] item := hvalue
      exact .unfilled hw
    · exact .filled (y := ⟨marker, w.value⟩) hw hscalar (List.mem_singleton_self _)
  cases x with
  | value v =>
    cases h
    exact .marker (List.mem_singleton_self _)
  | list values =>
    obtain ⟨bindings, -, hvalues, hrun⟩ := WrappedValue.splice_forList d name values names
    cases hrun.symm.trans h
    rw [← hvalues]
    exact .listed (List.Subset.refl _)
  | bound v => exact hsplice _ (fun _ heq => by cases heq) rfl
  | wrapped template v => exact hsplice _ (fun _ heq => by cases heq) rfl
  | pattern method s => exact hsplice _ (fun _ heq => by cases heq) rfl
  | timestamp t => exact hsplice _ (fun _ heq => by cases heq) rfl

end Operand

namespace Operands

/-- The operands, without the names they are given under. -/
def all : Operands → List Operand
  | positional values => values
  | named entries => entries.map (·.2)

theorem of_mem_values_args {operands : Operands} {d : Dialect} {arg : Arg}
    (h : arg ∈ (operands.args d).values) : ∃ x ∈ operands.all, x.arg d = arg := by
  cases operands with
  | positional values => exact List.mem_map.mp h
  | named entries =>
    obtain ⟨⟨name, arg⟩, hentry, rfl⟩ := List.mem_map.mp h
    obtain ⟨⟨name, x⟩, hx, hsame⟩ := List.mem_map.mp (Bag.mem_of_ofList hentry)
    exact ⟨x, List.mem_map_of_mem hx, congrArg Prod.snd hsame⟩

end Operands

namespace Building

variable {resolved : List (String × Arg)} {again : List (String × List Token)} {ts : List Token}
  {names after : Names} {f : Fragment}

/-- A token of a template, with what is written for the placeholders. -/
def substitute (written : String → List Token) : Token → List Token
  | .param name => written name
  | t => [t]

theorem append_tokens_of_compact {first rest : Fragment} {us vs : List Token}
    (hfirst : first.tokens = compact us) (hrest : rest.tokens = compact vs) :
    (first ++ rest).tokens = compact (us ++ vs) := by
  rw [Fragment.append_tokens, hfirst, hrest, Token.append_compact, Token.compact_append_compact]

/-- What comes of a template is the template with something written for each placeholder: what was
written for it before, or else what is put for it the first time.  The induction is on the tokens
that are left. -/
theorem substituted_of_expand (h : expand resolved again ts names = (.ok f, after)) :
    ∃ written : String → List Token,
      (∀ name tokens, again.lookup name = some tokens → written name = tokens) ∧
      (∀ name ∈ paramNames ts, again.lookup name = none → ∃ before middle value,
        place name (resolved.lookup name) before = (.ok value, middle) ∧
          value.tokens = written name ∧ value.bindings ⊆ f.bindings) ∧
      f.tokens = compact (ts.flatMap (substitute written)) := by
  induction again, ts using expand.induct generalizing names f with
  | case1 again =>
    cases h
    refine ⟨fun name => (again.lookup name).getD [], ?_, by simp, rfl⟩
    intro name tokens hname
    simp only [hname, Option.getD_some]
  | case2 again name ts tokens hname ih =>
    simp only [expand, hname] at h
    obtain ⟨rest, middle, hrest, hf⟩ := of_bind_ok h
    cases hf
    obtain ⟨written, hagain, hfirst, htokens⟩ := ih hrest
    refine ⟨written, hagain, ?_, ?_⟩
    · intro other hother hnone
      rcases List.mem_cons.mp hother with rfl | hother
      · rw [hname] at hnone
        cases hnone
      · exact hfirst other hother hnone
    · apply append_tokens_of_compact _ htokens
      exact congrArg compact (hagain name tokens hname).symm
  | case3 again name ts hname ih =>
    simp only [expand, hname] at h
    obtain ⟨value, middle, hvalue, h⟩ := of_bind_ok h
    obtain ⟨rest, final, hrest, hf⟩ := of_bind_ok h
    cases hf
    obtain ⟨written, hagain, hfirst, htokens⟩ := ih value hrest
    have hwritten : written name = value.tokens := hagain name value.tokens (by simp)
    refine ⟨written, ?_, ?_, ?_⟩
    · intro other tokens hother
      apply hagain
      rw [lookup_cons_of_ne]
      · exact hother
      · rintro rfl
        rw [hname] at hother
        cases hother
    · intro other hother hnone
      by_cases hsame : other = name
      · subst hsame
        exact ⟨names, middle, value, hvalue, hwritten.symm, List.subset_append_left _ _⟩
      · have hmem : other ∈ paramNames ts := (List.mem_cons.mp hother).resolve_left hsame
        obtain ⟨before, middle', value', hplace, hsame', hsub⟩ :=
          hfirst other hmem ((lookup_cons_of_ne _ hsame).trans hnone)
        exact ⟨before, middle', value', hplace, hsame',
          List.Subset.trans hsub (List.subset_append_right _ _)⟩
    · apply append_tokens_of_compact _ htokens
      rw [substitute, hwritten]
      exact (merged_place name _ names value (congrArg Prod.fst hvalue)).symm
  | case4 again t ts ht ih =>
    rw [expand_cons ht] at h
    obtain ⟨rest, middle, hrest, hf⟩ := of_bind_ok h
    cases hf
    obtain ⟨written, hagain, hfirst, htokens⟩ := ih hrest
    refine ⟨written, hagain, ?_, ?_⟩
    · rw [Token.paramNames_cons_of_ne ht]
      exact hfirst
    · apply append_tokens_of_compact _ htokens
      cases t with
      | param name => exact (ht name rfl).elim
      | _ => rfl

/-- A slot comes from a placeholder, since a template has none itself. -/
theorem slot_mem_substituted (template : String) (written : String → List Token) :
    Token.slot ∈ (Template.scan template).flatMap (substitute written) ↔
      ∃ name ∈ Template.placeholders (Template.scan template), .slot ∈ written name := by
  simp only [List.mem_flatMap, Template.placeholders, mem_distinct]
  constructor
  · rintro ⟨t, ht, hslot⟩
    rcases Template.text_or_param_of_mem_scan ht with ⟨s, rfl⟩ | ⟨name, rfl⟩
    · simp [substitute] at hslot
    · exact ⟨name, Token.mem_paramNames.mpr ht, hslot⟩
  · rintro ⟨name, hname, hslot⟩
    exact ⟨.param name, Token.mem_paramNames.mp hname, hslot⟩

/-- Each placeholder of a template is resolved to the argument of an operand. -/
theorem exists_operand {d : Dialect} {operands : Operands} {template : String}
    {placeholders : List String}
    (h : resolve template placeholders (operands.args d) = .ok resolved) :
    ∀ name ∈ placeholders, ∃ x ∈ operands.all, resolved.lookup name = some (x.arg d) := by
  intro name hname
  obtain ⟨arg, harg⟩ := Option.isSome_iff_exists.mp (isSome_lookup_of_resolve h name hname)
  obtain ⟨x, hx, rfl⟩ := operands.of_mem_values_args
    (mem_values_of_resolve h _ (mem_of_lookup harg))
  exact ⟨x, hx, harg⟩

/-- A template that is appended comes behind the statement with its placeholders replaced.  For each
of them there is written what the operand is that it is resolved to: a marker for a value, or a text
with markers for the value in its slots, or markers for the values of a list, which are bound.  Only
a list without items that has text around it binds nothing, and its text is written as it is.  So
the slots that are left are those in such texts, and there were no others before. -/
theorem append_written {b b' : Builder} {template : String} {operands : Operands}
    (h : append template (operands.args b.dialect) b = (.ok (), b')) :
    let d := b.dialect
    let tokens := Template.scan (Text.trim template)
    ∃ (resolved : List (String × Arg)) (written : String → List Token) (added : List Binding),
      resolve (Text.trim template) (Template.placeholders tokens) (operands.args d) =
          .ok resolved ∧
        b'.body.tokens =
          Token.append b.body.tokens (.text " " :: tokens.flatMap (substitute written)) ∧
        b'.body.bindings = b.body.bindings ++ added ∧
        (∀ name ∈ Template.placeholders tokens, ∃ x ∈ operands.all,
          resolved.lookup name = some (x.arg d) ∧ x.Written d added (written name)) ∧
        (.slot ∈ b'.body.tokens ↔
          .slot ∈ b.body.tokens ∨ ∃ name ∈ Template.placeholders tokens, ∃ x ∈ operands.all,
            resolved.lookup name = some (x.arg d) ∧ x.LeavesSlot) := by
  intro d tokens
  cases hresolve : resolve (Text.trim template) (Template.placeholders tokens) (operands.args d) with
  | error e =>
    rw [append_of_resolve_error hresolve] at h
    cases h
  | ok resolved =>
    obtain ⟨piece, names, hrun, rfl⟩ := of_append_ok hresolve h
    obtain ⟨written, -, hplaced, htokens⟩ := substituted_of_expand hrun
    have hspace : (Fragment.text " ").tokens = compact [.text " "] := rfl
    have hbody : (b.body ++ (.text " " ++ piece)).tokens =
        Token.append b.body.tokens (.text " " :: tokens.flatMap (substitute written)) := by
      rw [Fragment.append_tokens, append_tokens_of_compact hspace htokens,
        Token.append_compact_right]
      rfl
    have hwritten : ∀ name ∈ Template.placeholders tokens, ∃ x ∈ operands.all,
        resolved.lookup name = some (x.arg d) ∧ x.Written d piece.bindings (written name) := by
      intro name hname
      obtain ⟨x, hx, hlookup⟩ := exists_operand hresolve name hname
      obtain ⟨before, middle, value, hplace, hvalue, hsub⟩ :=
        hplaced name (mem_distinct.mp hname) rfl
      rw [hlookup] at hplace
      have hthere := Operand.written_of_place hplace
      rw [hvalue] at hthere
      exact ⟨x, hx, hlookup, hthere.mono hsub⟩
    refine ⟨resolved, written, piece.bindings, rfl, hbody, rfl, hwritten, ?_⟩
    have hnotext : ∀ s, Token.slot ≠ .text s := by simp
    show Token.slot ∈ (b.body ++ (.text " " ++ piece)).tokens ↔ _
    rw [hbody, Token.mem_append hnotext, List.mem_cons, or_iff_right (hnotext " "),
      slot_mem_substituted]
    apply or_congr_right
    constructor
    · rintro ⟨name, hname, hslot⟩
      obtain ⟨x, hx, hlookup, hthere⟩ := hwritten name hname
      exact ⟨name, hname, x, hx, hlookup, hthere.slot_mem.mp hslot⟩
    · rintro ⟨name, hname, x, hx, hlookup, hleaves⟩
      obtain ⟨y, hy, hlookup', hthere⟩ := hwritten name hname
      -- operands that make the same argument leave the same slots
      have harg : x.arg d = y.arg d := Option.some.inj (hlookup.symm.trans hlookup')
      rw [Operand.leavesSlot_iff d, harg, ← Operand.leavesSlot_iff] at hleaves
      exact ⟨name, hname, hthere.slot_mem.mpr hleaves⟩

/-- A list without items, just as a value. -/
def emptyList : Operand := .bound (.list [] (.integer .int32))

/-- The statement that selects it. -/
def selectsEmptyList : Builder :=
  { Builder.new .sqlite with body := ⟨[.text " SELECT ", .slot], []⟩ }

theorem scan_select : Template.scan (Text.trim "SELECT :x") = [.text "SELECT ", .param "x"] := by
  decide +kernel

theorem append_emptyList :
    append "SELECT :x" ((Operands.positional [emptyList]).args .sqlite) (Builder.new .sqlite) =
      (.ok (), selectsEmptyList) := by
  have hresolve : resolve (Text.trim "SELECT :x")
      (Template.placeholders (Template.scan (Text.trim "SELECT :x")))
      ((Operands.positional [emptyList]).args .sqlite) = .ok [("x", emptyList.arg .sqlite)] := by
    rw [scan_select]
    rfl
  rw [append_of_resolve hresolve, scan_select]
  rfl

theorem append_written_emptyList :
    append "SELECT :x" ((Operands.positional [emptyList]).args .sqlite) (Builder.new .sqlite) =
        (.ok (), selectsEmptyList) ∧
      selectsEmptyList.body.bindings = [] ∧ .slot ∈ selectsEmptyList.body.tokens := by
  have happend : append "SELECT :x"
      ((Operands.positional [emptyList]).args (Builder.new .sqlite).dialect) (Builder.new .sqlite) =
        (.ok (), selectsEmptyList) := append_emptyList
  obtain ⟨resolved, written, added, -, -, -, hwritten, hslot⟩ := append_written happend
  have hname : "x" ∈ Template.placeholders (Template.scan (Text.trim "SELECT :x")) := by
    rw [scan_select]
    exact List.mem_singleton_self _
  obtain ⟨x, hx, hlookup, -⟩ := hwritten "x" hname
  have hleaves : x.LeavesSlot := by
    rw [List.mem_singleton.mp hx]
    exact ⟨_, rfl⟩
  exact ⟨append_emptyList, rfl, hslot.mpr (.inr ⟨"x", hname, x, hx, hlookup, hleaves⟩)⟩

/-- A template may be appended without a fault and leave a slot. -/
theorem slot_left :
    ¬ ∀ (b b' : Builder) (template : String) (operands : Operands),
      append template (operands.args b.dialect) b = (.ok (), b') →
        .slot ∉ b.body.tokens → .slot ∉ b'.body.tokens := by
  intro hclaim
  apply hclaim (Builder.new .sqlite) selectsEmptyList "SELECT :x" (.positional [emptyList])
    append_emptyList List.not_mem_nil
  exact List.mem_cons_of_mem _ (List.mem_singleton_self _)

end Building

end BoundSql
