import BoundSql.Proofs.FailedOperation
import BoundSql.Proofs.TemplateEnds

/-!
# Plain values in the place of placeholders

A template with plain values is written as it is, each placeholder as the marker of the name that
was claimed for it where it came first.  So what is appended is the scanned template with its
placeholders relabeled, and the values are bound in the order in which their placeholders come first
(`Building.expand_values`).  Values given by name are found under the names of the placeholders,
whatever else is given with them, so it is the same whether values are given by position or by name
(`Building.append_plain_values`).
-/

namespace BoundSql

/-! ### Names and what goes with them -/

theorem nodup_distinct (xs : List String) : (distinct xs).Nodup := by
  induction xs with
  | nil => exact List.nodup_nil
  | cons x xs ih =>
    rw [distinct, List.nodup_cons]
    exact ⟨by simp, ih.filter _⟩

/-- What different names are paired with is found under them, in order. -/
theorem map_lookup_zip {α : Type} {names : List String} {xs : List α} (hnames : names.Nodup)
    (hlength : names.length ≤ xs.length) :
    names.map (fun name => (names.zip xs).lookup name) = (xs.take names.length).map some := by
  induction names generalizing xs with
  | nil => rfl
  | cons name names ih =>
    obtain ⟨hname, hnames⟩ := List.nodup_cons.mp hnames
    cases xs with
    | nil => simp at hlength
    | cons x xs =>
      have hrest : names.map (fun other => ((name, x) :: names.zip xs).lookup other) =
          names.map fun other => (names.zip xs).lookup other := by
        apply List.map_congr_left
        intro other hother
        exact lookup_cons_of_ne x fun heq => hname (heq ▸ hother)
      rw [List.zip_cons_cons, List.map_cons, hrest, ih hnames (by simpa using hlength)]
      simp

theorem exists_lookup_zip {α : Type} {names : List String} {xs : List α} (hnames : names.Nodup)
    (hlength : names.length ≤ xs.length) {name : String} (hname : name ∈ names) :
    ∃ x, (names.zip xs).lookup name = some x := by
  have hfound : (names.zip xs).lookup name ∈ (xs.take names.length).map some := by
    rw [← map_lookup_zip hnames hlength]
    exact List.mem_map_of_mem hname
  obtain ⟨x, -, hx⟩ := List.mem_map.mp hfound
  exact ⟨x, hx.symm⟩

theorem map_getD_lookup_zip {α : Type} {names : List String} {xs : List α} (hnames : names.Nodup)
    (hlength : names.length ≤ xs.length) (default : String → α) :
    names.map (fun name => ((names.zip xs).lookup name).getD (default name)) =
      xs.take names.length := by
  apply List.map_injective_iff.mpr (Option.some_injective α)
  rw [List.map_map, ← map_lookup_zip hnames hlength]
  apply List.map_congr_left
  intro name hname
  obtain ⟨x, hx⟩ := exists_lookup_zip hnames hlength hname
  rw [Function.comp, hx]
  rfl

theorem decodeEach_eq_ok {α β : Type} {f : α → Except Fault β} {g : α → β} {xs : List α}
    (h : ∀ x ∈ xs, f x = .ok (g x)) : decodeEach f xs = .ok (xs.map g) := by
  induction xs with
  | nil => rfl
  | cons x xs ih =>
    have hrest := ih fun y hy => h y (List.mem_cons_of_mem _ hy)
    simp only [decodeEach, h x List.mem_cons_self, hrest]
    rfl

/-- The first fault is the fault of the whole. -/
theorem decodeEach_append_cons {α β : Type} {f : α → Except Fault β} {front : List α} {x : α}
    {e : Fault} (hfront : ∀ y ∈ front, ∃ z, f y = .ok z) (hx : f x = .error e) (rest : List α) :
    decodeEach f (front ++ x :: rest) = .error e := by
  induction front with
  | nil =>
    rw [List.nil_append, decodeEach, hx]
  | cons y front ih =>
    obtain ⟨z, hz⟩ := hfront y List.mem_cons_self
    rw [List.cons_append, decodeEach, hz]
    dsimp only
    rw [ih fun y hy => hfront y (List.mem_cons_of_mem _ hy)]
    rfl

/-! ### The tokens of a template -/

namespace Template

/-- A template is text and placeholders. -/
theorem text_or_param_of_mem_scan {template : String} {t : Token} (h : t ∈ scan template) :
    (∃ s, t = .text s) ∨ ∃ name, t = .param name := by
  have hlexemes : ∀ cs, ∀ t ∈ lexemes cs, (∃ s, t = .text s) ∨ ∃ name, t = .param name := by
    intro cs
    induction cs using lexemes.induct with
    | case1 => simp [lexemes]
    | case2 c rest ih =>
      rw [lexemes]
      obtain ⟨front, -, htoken⟩ := lexeme_split c rest
      intro t ht
      rcases List.mem_cons.mp ht with rfl | ht
      · rcases htoken with htext | ⟨name, hname, -⟩
        · exact .inl ⟨_, htext⟩
        · exact .inr ⟨name, hname⟩
      · exact ih t ht
  cases t with
  | text s => exact .inl ⟨s, rfl⟩
  | _ => exact hlexemes _ _ ((Token.mem_compact (by simp)).mp h)

end Template

namespace Building

/-! ### Expanding -/

/-- The placeholders of tokens that were not written before, in order of first appearance. -/
def unwritten (written : List (String × String)) (ts : List Token) : List String :=
  (Template.placeholders ts).filter fun name => (written.lookup name).isNone

theorem unwritten_param_of_some {written : List (String × String)} {name unique : String}
    (h : written.lookup name = some unique) (ts : List Token) :
    unwritten written (.param name :: ts) = unwritten written ts := by
  simp only [unwritten, Template.placeholders, Token.paramNames_cons_param, distinct]
  rw [List.filter_cons_of_neg (by simp [h]), List.filter_filter]
  apply List.filter_congr
  intro other _
  by_cases hother : other = name <;> simp [hother, h]

theorem unwritten_param_of_none {written : List (String × String)} {name : String}
    (h : written.lookup name = none) (unique : String) (ts : List Token) :
    unwritten written (.param name :: ts) = name :: unwritten ((name, unique) :: written) ts := by
  simp only [unwritten, Template.placeholders, Token.paramNames_cons_param, distinct]
  rw [List.filter_cons_of_pos (by simp [h]), List.filter_filter]
  congr 1
  apply List.filter_congr
  intro other _
  by_cases hother : other = name
  · simp [hother]
  · simp [lookup_cons_of_ne unique hother, hother]

/-- The marker that stands for a placeholder, where names were claimed for some. -/
def markerOf (claimed : List (String × String)) (name : String) : String :=
  (claimed.lookup name).getD name

theorem markerOf_cons_append {written claimed : List (String × String)} {name : String}
    (h : written.lookup name = none) (unique : String) :
    markerOf ((name, unique) :: written ++ claimed) =
      markerOf (written ++ (name, unique) :: claimed) := by
  funext other
  unfold markerOf
  rw [List.cons_append, List.lookup_append]
  by_cases hother : other = name
  · simp [hother, h]
  · rw [lookup_cons_of_ne unique hother, lookup_cons_of_ne unique hother, List.lookup_append]

theorem pushTokens_append (ts us : List Token) (bindings : List Binding) :
    Fragment.empty.pushTokens ts ++ (⟨Token.compact us, bindings⟩ : Fragment) =
      ⟨Token.compact (ts ++ us), bindings⟩ := by
  have htokens : Token.append (Token.compact ts) (Token.compact us) = Token.compact (ts ++ us) := by
    rw [Token.append_compact, Token.compact_append_compact]
  exact congrArg₂ Fragment.mk htokens rfl

theorem text_append (s : String) (us : List Token) (bindings : List Binding) :
    Fragment.text s ++ (⟨Token.compact us, bindings⟩ : Fragment) =
      ⟨Token.compact (.text s :: us), bindings⟩ := by
  have htokens : Token.append (Token.compact [.text s]) (Token.compact us) =
      Token.compact (.text s :: us) := by
    rw [Token.append_compact, Token.compact_append_compact]
    rfl
  exact congrArg₂ Fragment.mk htokens rfl

theorem param_append (name : String) (value : Value) (us : List Token) (bindings : List Binding) :
    Fragment.param name value ++ (⟨Token.compact us, bindings⟩ : Fragment) =
      ⟨Token.compact (.param name :: us), ⟨name, value⟩ :: bindings⟩ :=
  congrArg₂ Fragment.mk (Token.compact_append_compact [.param name] us) rfl

/-- With plain values a template is written with its placeholders relabeled, and each of them that
was not written before is bound.  The induction is on the tokens that are left; `written` holds the
names that were claimed on the way to them. -/
theorem expand_values (resolved : List (String × Arg)) (v : String → Value)
    (written : List (String × String)) (ts : List Token) (names : Names)
    (hts : ∀ t ∈ ts, (∃ s, t = .text s) ∨
      ∃ name, t = .param name ∧ resolved.lookup name = some (.value (v name))) :
    let claimed := names.claimAll (unwritten written ts)
    expand resolved (written.map (Prod.map id fun unique => [.param unique])) ts names =
      (.ok ⟨Token.compact (ts.map (Token.relabel
          (markerOf (written ++ (unwritten written ts).zip claimed.1)))),
        List.zipWith Binding.mk claimed.1 ((unwritten written ts).map v)⟩, claimed.2) := by
  induction ts generalizing written names with
  | nil => rfl
  | cons t ts ih =>
    have hrest := fun t ht => hts t (List.mem_cons_of_mem _ ht)
    rcases hts t List.mem_cons_self with ⟨s, rfl⟩ | ⟨name, rfl, hname⟩
    · have hsame : unwritten written (.text s :: ts) = unwritten written ts := rfl
      simp only [expand, hsame]
      rw [bind_apply, ih written names hrest]
      simp only [Claiming.pure_apply, pushTokens_append]
      rfl
    · cases hwritten : written.lookup name with
      | some unique =>
        have hagain : (written.map (Prod.map id fun unique => [Token.param unique])).lookup name =
            some [.param unique] := by
          rw [lookup_map_snd, hwritten]
          rfl
        have hmarker : ∀ claimed, markerOf (written ++ claimed) name = unique := by
          intro claimed
          simp [markerOf, List.lookup_append, hwritten]
        simp only [expand, hagain, unwritten_param_of_some hwritten]
        rw [bind_apply, ih written names hrest]
        simp only [Claiming.pure_apply, pushTokens_append, List.map_cons, Token.relabel_param,
          hmarker]
        rfl
      | none =>
        have hagain : (written.map (Prod.map id fun unique => [Token.param unique])).lookup name =
            none := by
          rw [lookup_map_snd, hwritten]
          rfl
        rcases hclaim : names.claim name with ⟨unique, after⟩
        have hmarker : ∀ claimed,
            markerOf ((name, unique) :: written ++ claimed) name = unique := by
          intro claimed
          simp [markerOf]
        have hexpand : expand resolved ((name, (Fragment.param unique (v name)).tokens) ::
            written.map (Prod.map id fun unique => [Token.param unique])) ts after = _ :=
          ih ((name, unique) :: written) after hrest
        simp only [expand, hagain, hname, place, unwritten_param_of_none hwritten unique,
          Names.claimAll, hclaim]
        rw [bind_apply, boundAs_apply, hclaim]
        dsimp only
        rw [bind_apply, hexpand]
        simp only [Claiming.pure_apply, List.map_cons, Token.relabel_param, List.zip_cons_cons,
          List.zipWith_cons_cons, ← markerOf_cons_append hwritten, hmarker]
        rw [param_append]

/-! ### Appending -/

section

variable {b : Builder} {template : String} {args : Args}

theorem append_of_resolve {resolved : List (String × Arg)}
    (h : resolve (Text.trim template)
      (Template.placeholders (Template.scan (Text.trim template))) args = .ok resolved) :
    append template args b =
      match expand resolved [] (Template.scan (Text.trim template)) b.names with
      | (.ok piece, names) =>
        (.ok (), { b with body := b.body ++ (.text " " ++ piece), names })
      | (.error e, names) => (.error e, { b with names }) := by
  rw [append_eq_writing, bind_apply]
  simp only [ofExcept, h]
  exact writing_apply _ _ b

theorem append_of_resolve_error {e : Fault}
    (h : resolve (Text.trim template)
      (Template.placeholders (Template.scan (Text.trim template))) args = .error e) :
    append template args b = (.error e, b) := by
  rw [append_eq_writing, bind_apply]
  simp only [ofExcept, h]

/-- Where every placeholder stands for a plain value, in whatever way the values are given. -/
theorem append_of_values {v : String → Value} {values : List Value}
    (hargs : ∃ resolved, resolve (Text.trim template)
        (Template.placeholders (Template.scan (Text.trim template))) args = .ok resolved ∧
      ∀ name ∈ Template.placeholders (Template.scan (Text.trim template)),
        resolved.lookup name = some (.value (v name)))
    (hvalues : (Template.placeholders (Template.scan (Text.trim template))).map v = values) :
    let tokens := Template.scan (Text.trim template)
    let placeholders := Template.placeholders tokens
    let claimed := b.names.claimAll placeholders
    append template args b =
      (.ok (), { b with
        body := ⟨Token.append b.body.tokens
            (.text " " :: tokens.map (Token.relabel (markerOf (placeholders.zip claimed.1)))),
          b.body.bindings ++ List.zipWith Binding.mk claimed.1 values⟩
        names := claimed.2 }) := by
  intro tokens placeholders claimed
  subst hvalues
  obtain ⟨resolved, hresolve, hvalues⟩ := hargs
  have htokens : ∀ t ∈ tokens, (∃ s, t = .text s) ∨
      ∃ name, t = .param name ∧ resolved.lookup name = some (.value (v name)) := by
    intro t ht
    rcases Template.text_or_param_of_mem_scan ht with htext | ⟨name, rfl⟩
    · exact .inl htext
    · refine .inr ⟨name, rfl, hvalues name ?_⟩
      exact mem_distinct.mpr (Token.mem_paramNames.mpr ht)
  have hunwritten : unwritten [] tokens = placeholders := by simp [unwritten, placeholders]
  have hexpand : expand resolved [] (Template.scan (Text.trim template)) b.names =
      (.ok ⟨Token.compact (tokens.map (Token.relabel (markerOf (placeholders.zip claimed.1)))),
        List.zipWith Binding.mk claimed.1 (placeholders.map v)⟩, claimed.2) := by
    have hrun := expand_values resolved v [] tokens b.names htokens
    rw [hunwritten] at hrun
    exact hrun
  rw [append_of_resolve hresolve, hexpand]
  dsimp only
  rw [text_append]
  exact congrArg (fun ts => (Except.ok (), { b with
    body := ⟨ts, b.body.bindings ++ List.zipWith Binding.mk claimed.1 (placeholders.map v)⟩
    names := claimed.2 })) (Token.append_compact_right _ _)

end

/-! ### Values given by position and by name -/

section

variable {text : String} {placeholders : List String} {values : List Value}

/-- What a placeholder stands for where values are given in the order of the placeholders. -/
def valueAt (placeholders : List String) (values : List Value) (name : String) : Value :=
  ((placeholders.zip values).lookup name).getD .unknown

theorem lookup_zip_eq_valueAt (hnames : placeholders.Nodup)
    (hlength : placeholders.length ≤ values.length) {name : String} (hname : name ∈ placeholders) :
    (placeholders.zip values).lookup name = some (valueAt placeholders values name) := by
  obtain ⟨value, hvalue⟩ := exists_lookup_zip hnames hlength hname
  rw [valueAt, hvalue]
  rfl

theorem map_valueAt (hnames : placeholders.Nodup) (hlength : placeholders.length ≤ values.length) :
    placeholders.map (valueAt placeholders values) = values.take placeholders.length :=
  map_getD_lookup_zip hnames hlength fun _ => .unknown

theorem resolve_positional {args : List Arg} (hlength : placeholders.length ≤ args.length)
    (hnone : placeholders = [] → args = []) :
    resolve text placeholders (.positional args) = .ok (placeholders.zip args) := by
  unfold resolve
  rw [if_neg (by simpa [Args.isEmpty] using hnone)]
  exact if_neg (by omega)

theorem resolve_values (hnames : placeholders.Nodup)
    (hlength : placeholders.length ≤ values.length) (hnone : placeholders = [] → values = []) :
    ∃ resolved, resolve text placeholders (.positional (values.map .value)) = .ok resolved ∧
      ∀ name ∈ placeholders,
        resolved.lookup name = some (.value (valueAt placeholders values name)) := by
  refine ⟨placeholders.zip (values.map .value),
    resolve_positional (by simpa using hlength) (by simpa using hnone), ?_⟩
  intro name hname
  have hzip : placeholders.zip (values.map Arg.value) =
      (placeholders.zip values).map (Prod.map id Arg.value) := List.zip_map_right ..
  rw [hzip, lookup_map_snd, lookup_zip_eq_valueAt hnames hlength hname]
  rfl

theorem resolve_bag (hnames : placeholders.Nodup)
    (hlength : placeholders.length ≤ values.length) (hsome : placeholders ≠ []) {bag : Bag}
    (hbag : ∀ entry ∈ placeholders.zip values, bag.get? entry.1 = some (.value entry.2)) :
    ∃ resolved, resolve text placeholders (.named bag) = .ok resolved ∧
      ∀ name ∈ placeholders,
        resolved.lookup name = some (.value (valueAt placeholders values name)) := by
  refine ⟨placeholders.map fun name => (name, .value (valueAt placeholders values name)), ?_, ?_⟩
  · unfold resolve
    rw [if_neg (by simp [hsome])]
    apply decodeEach_eq_ok
    intro name hname
    have hentry := mem_of_lookup (lookup_zip_eq_valueAt hnames hlength hname)
    rw [hbag _ hentry]
  · intro name hname
    exact List.lookup_graph _ hname

theorem resolve_of_few {args : List Arg} (h : args.length < placeholders.length) :
    resolve text placeholders (.positional args) =
      .error (.count (.tooFewValues text placeholders.length args.length)) := by
  have hsome : placeholders ≠ [] := by
    rintro rfl
    simp at h
  unfold resolve
  rw [if_neg (by simp [hsome])]
  exact if_pos h

theorem resolve_stray {args : Args} (h : args.isEmpty = false) :
    resolve text [] args = .error (.template (.strayValues text)) := by
  unfold resolve
  exact if_pos (by simp [h])

theorem resolve_of_lacking {bag : Bag} {name : String}
    (hname : placeholders.find? (fun name => (bag.get? name).isNone) = some name) :
    resolve text placeholders (.named bag) = .error (.count (.missingName name text)) := by
  obtain ⟨hlacking, front, rest, hsplit, hfront⟩ := List.find?_eq_some_iff_append.mp hname
  unfold resolve
  rw [if_neg (by simp [hsplit]), hsplit]
  apply decodeEach_append_cons
  · intro other hother
    obtain ⟨arg, harg⟩ : ∃ arg, bag.get? other = some arg := by
      simpa [Option.isSome_iff_exists] using hfront other hother
    exact ⟨(other, arg), by rw [harg]⟩
  · rw [Option.isNone_iff_eq_none.mp hlacking]

end

/-- Plain values are bound to the placeholders of a template in the order in which these come
first, each to one fresh name claimed for it, and every occurrence of the placeholder becomes the
marker of that name; surplus values are not used.  It does not matter whether the values are given
by position or under the names of the placeholders.  Too few values, a placeholder without a value
and values without a placeholder are faults that leave the statement as it was. -/
theorem append_plain_values (b : Builder) (template : String) :
    let text := Text.trim template
    let tokens := Template.scan text
    let placeholders := Template.placeholders tokens
    let claimed := b.names.claimAll placeholders
    (∃ ρ : String → String, placeholders.map ρ = claimed.1 ∧
      ∀ values : List Value, placeholders.length ≤ values.length →
        (placeholders = [] → values = []) →
        let bound := { b with
          body := ⟨Token.append b.body.tokens (.text " " :: tokens.map (Token.relabel ρ)),
            b.body.bindings ++
              List.zipWith Binding.mk claimed.1 (values.take placeholders.length)⟩
          names := claimed.2 }
        append template (.positional (values.map .value)) b = (.ok (), bound) ∧
          ∀ bag : Bag, placeholders ≠ [] →
            (∀ entry ∈ placeholders.zip values, bag.get? entry.1 = some (.value entry.2)) →
              append template (.named bag) b = (.ok (), bound)) ∧
      (claimed.1.length = placeholders.length ∧ claimed.1.Nodup ∧
        ∀ name ∈ claimed.1, name ∉ b.names.taken) ∧
      (∀ args : List Arg, args.length < placeholders.length →
        append template (.positional args) b =
          (.error (.count (.tooFewValues text placeholders.length args.length)), b)) ∧
      (∀ bag : Bag, (∃ name ∈ placeholders, bag.get? name = none) →
        ∃ name, placeholders.find? (fun name => (bag.get? name).isNone) = some name ∧
          append template (.named bag) b = (.error (.count (.missingName name text)), b)) ∧
      (∀ args : Args, placeholders = [] → args.isEmpty = false →
        append template args b = (.error (.template (.strayValues text)), b)) := by
  intro text tokens placeholders claimed
  have hnames : placeholders.Nodup := nodup_distinct _
  obtain ⟨hlength, hnodup, hfresh, -⟩ := b.names.claimAll_fresh placeholders
  refine ⟨⟨markerOf (placeholders.zip claimed.1), ?_, ?_⟩, ⟨hlength, hnodup, hfresh⟩, ?_, ?_, ?_⟩
  · -- each placeholder is paired with the name claimed for it
    have hmarkers := map_getD_lookup_zip hnames hlength.ge id
    rw [← hlength, List.take_length] at hmarkers
    exact hmarkers
  · intro values hvalues hnone bound
    have hbound : ∀ args, (∃ resolved, resolve text placeholders args = .ok resolved ∧
        ∀ name ∈ placeholders,
          resolved.lookup name = some (.value (valueAt placeholders values name))) →
        append template args b = (.ok (), bound) := by
      intro args hargs
      exact append_of_values hargs (map_valueAt hnames hvalues)
    refine ⟨hbound _ (resolve_values hnames hvalues hnone), ?_⟩
    intro bag hsome hbag
    exact hbound _ (resolve_bag hnames hvalues hsome hbag)
  · intro args hfew
    exact append_of_resolve_error (resolve_of_few hfew)
  · rintro bag ⟨name, hname, hlacking⟩
    obtain ⟨first, hfirst⟩ : ∃ first,
        placeholders.find? (fun name => (bag.get? name).isNone) = some first := by
      rw [← Option.isSome_iff_exists, List.find?_isSome]
      exact ⟨name, hname, by simp [hlacking]⟩
    exact ⟨first, hfirst, append_of_resolve_error (resolve_of_lacking hfirst)⟩
  · intro args hnone hargs
    apply append_of_resolve_error
    have hstray : resolve text [] args = _ := resolve_stray hargs
    rw [← hnone] at hstray
    exact hstray

/-- Where `a` is taken, with a value to spare and with a bag in another order. -/
theorem bound_by_position_and_by_name :
    let b : Builder := { Builder.new .sqlite with names := (Names.none.claim "a").2 }
    let template := " x = @a OR y = :b OR z = :a "
    let bag : Bag := ⟨[("c", .wrapped (.bound (.varchar "v"))), ("b", .value (.varchar "t")),
      ("a", .value (.varchar "s"))]⟩
    let bound : Builder := { b with
      body := ⟨[.text " x = ", .param "a1", .text " OR y = ", .param "b", .text " OR z = ",
        .param "a1"], [⟨"a1", .varchar "s"⟩, ⟨"b", .varchar "t"⟩]⟩
      names := ⟨["b", "a1", "a"], [("a", 2)]⟩ }
    append template (.positional [.value (.varchar "s"), .value (.varchar "t"),
        .value (.varchar "u")]) b = (.ok (), bound) ∧
      append template (.named bag) b = (.ok (), bound) ∧
      append template (.positional [.value (.varchar "s")]) b =
        (.error (.count (.tooFewValues "x = @a OR y = :b OR z = :a" 2 1)), b) ∧
      append template (.named .empty) b =
        (.error (.count (.missingName "a" "x = @a OR y = :b OR z = :a")), b) ∧
      append "x = 1" (.named bag) b = (.error (.template (.strayValues "x = 1")), b) := by
  intro b template bag bound
  have htext : Text.trim template = "x = @a OR y = :b OR z = :a" := by decide +kernel
  have htokens : Template.scan (Text.trim template) =
      [.text "x = ", .param "a", .text " OR y = ", .param "b", .text " OR z = ", .param "a"] := by
    decide +kernel
  have hplaceholders : Template.placeholders (Template.scan (Text.trim template)) = ["a", "b"] := by
    decide +kernel
  have hclaimed : b.names.claimAll ["a", "b"] = (["a1", "b"], ⟨["b", "a1", "a"], [("a", 2)]⟩) := by
    decide +kernel
  obtain ⟨⟨ρ, hρ, hbound⟩, -, hfew, hlacking, -⟩ := append_plain_values b template
  rw [hplaceholders, hclaimed] at hρ
  obtain ⟨ha, hb⟩ : ρ "a" = "a1" ∧ ρ "b" = "b" := by simpa using hρ
  obtain ⟨hposition, hname⟩ := hbound [.varchar "s", .varchar "t", .varchar "u"]
    (by rw [hplaceholders]; decide) (by simp [hplaceholders])
  have hentries : ∀ entry ∈ ["a", "b"].zip [Value.varchar "s", .varchar "t", .varchar "u"],
      bag.get? entry.1 = some (.value entry.2) := by
    simp only [List.zip_cons_cons, List.zip_nil_left, List.forall_mem_cons]
    exact ⟨rfl, rfl, by simp⟩
  have hbag := hname bag (by simp [hplaceholders]) (by rw [hplaceholders]; exact hentries)
  rw [hplaceholders, hclaimed, htokens] at hposition hbag
  simp only [List.map_cons, List.map_nil, Token.relabel_param, Token.relabel_text, ha, hb]
    at hposition hbag
  refine ⟨hposition, hbag, ?_, ?_, ?_⟩
  · have hone := hfew [.value (.varchar "s")] (by rw [hplaceholders]; decide)
    rw [hplaceholders, htext] at hone
    exact hone
  · obtain ⟨name, hfirst, hnone⟩ := hlacking .empty ⟨"a", by simp [hplaceholders], rfl⟩
    rw [hplaceholders] at hfirst
    rw [htext] at hnone
    cases hfirst
    exact hnone
  · obtain ⟨-, -, -, -, hstray⟩ := append_plain_values b "x = 1"
    exact hstray (.named bag) (by decide +kernel) rfl

end Building

end BoundSql
