import BoundSql.Proofs.Outline
import BoundSql.Proofs.PlainValues
import BoundSql.Proofs.Scanning

/-!
# Templates one after the other

Two templates can be appended one after the other or as one template with a space between them, and
leave the same statement (`Building.append_consecutive`).  At a space scanning starts anew, unless a
literal is open there (`Template.scan_append_space`); text is merged across the space, which makes
no difference for what is written (`Building.expand_compact`); and a placeholder finds the same
argument and the same name as long as the templates share none (`Building.expand_append_tables`).
-/

namespace BoundSql

/-! ### Expanding -/

theorem distinct_append {xs ys : List String} (h : ∀ y ∈ ys, y ∉ xs) :
    distinct (xs ++ ys) = distinct xs ++ distinct ys := by
  induction xs with
  | nil => rfl
  | cons x xs ih =>
    have hrest := ih fun y hy hmem => h y hy (List.mem_cons_of_mem _ hmem)
    have hkept : (distinct ys).filter (· ≠ x) = distinct ys := by
      apply List.filter_eq_self.mpr
      intro y hy
      have hne : y ≠ x := fun heq => h y (Building.mem_distinct.mp hy) (heq ▸ List.mem_cons_self)
      simpa using hne
    rw [List.cons_append, distinct, distinct, hrest, List.filter_append, hkept]
    rfl

/-- One fragment and then another one behind it. -/
def Claiming.both (c c' : Claiming Fragment) : Claiming Fragment :=
  c >>= fun f => c' >>= fun g => pure (f ++ g)

theorem Claiming.both_of_ok {c c' : Claiming Fragment} {names middle after : Names} {f g : Fragment}
    (hc : c names = (.ok f, middle)) (hc' : c' middle = (.ok g, after)) :
    both c c' names = (.ok (f ++ g), after) := by
  unfold both
  rw [bind_apply, hc]
  dsimp only
  rw [bind_apply, hc']
  rfl

theorem Claiming.both_behind {c c' : Claiming Fragment} {first : Fragment} (hfirst : first.Merged)
    (hc : Yields Fragment.Merged c) :
    both (c >>= fun rest => pure (first ++ rest)) c' =
      both c c' >>= fun rest => pure (first ++ rest) := by
  unfold both
  rw [bind_assoc, bind_assoc]
  apply hc.bind_congr
  intro f hf
  simp only [pure_bind, bind_assoc, hfirst.append_assoc hf]

theorem Claiming.both_empty {c : Claiming Fragment} (hc : Yields Fragment.Merged c) :
    both (pure .empty) c = c := by
  unfold both
  rw [pure_bind]
  conv_rhs => rw [← bind_pure c]
  apply hc.bind_congr
  intro f hf
  rw [hf.empty_append]

namespace Building

open Claiming
open Token (paramNames compact consText)

variable {resolved resolved' : List (String × Arg)} {written written' : List (String × List Token)}
  {ts us : List Token}

theorem merged_place (name : String) (arg : Option Arg) :
    Yields Fragment.Merged (place name arg) := by
  cases arg with
  | none =>
    intro names f hf
    cases hf
    rfl
  | some arg =>
    cases arg with
    | value v => exact merged_boundAs name v
    | wrapped w => exact w.merged_splice name

theorem merged_behind {first : Fragment} (hfirst : first.Merged) (c : Claiming Fragment) :
    Yields Fragment.Merged (c >>= fun rest => pure (first ++ rest)) := by
  intro names f hf
  rw [bind_apply] at hf
  rcases hrun : c names with ⟨r, after⟩
  rw [hrun] at hf
  cases r with
  | error e => cases hf
  | ok rest =>
    cases hf
    exact hfirst.append rest

/-- However a template is expanded, its texts are merged. -/
theorem merged_expand (resolved : List (String × Arg)) (written : List (String × List Token))
    (ts : List Token) : Yields Fragment.Merged (expand resolved written ts) := by
  cases ts with
  | nil =>
    intro names f hf
    cases hf
    rfl
  | cons t ts =>
    cases t with
    | param name =>
      simp only [expand]
      split
      · exact merged_behind (Fragment.merged_pushTokens _) _
      · exact Yields.bind (merged_place name _) fun value hvalue => merged_behind hvalue _
    | _ => exact merged_behind (Fragment.merged_pushTokens _) _

/-- Only what the placeholders stand for matters. -/
theorem expand_congr (hresolved : ∀ name ∈ paramNames ts,
      resolved'.lookup name = resolved.lookup name)
    (hwritten : ∀ name ∈ paramNames ts, written'.lookup name = written.lookup name) :
    expand resolved' written' ts = expand resolved written ts := by
  induction written, ts using expand.induct generalizing written' with
  | case1 written => rfl
  | case2 written name ts tokens hname ih =>
    have hsame : written'.lookup name = some tokens := by
      rw [hwritten name List.mem_cons_self, hname]
    simp only [expand, hname, hsame]
    rw [ih (fun other hother => hresolved other (List.mem_cons_of_mem _ hother))
      fun other hother => hwritten other (List.mem_cons_of_mem _ hother)]
  | case3 written name ts hname ih =>
    have hsame : written'.lookup name = none := by
      rw [hwritten name List.mem_cons_self, hname]
    simp only [expand, hname, hsame, hresolved name List.mem_cons_self]
    congr 1
    funext value
    rw [ih value (fun other hother => hresolved other (List.mem_cons_of_mem _ hother))]
    intro other hother
    rw [List.lookup_cons, List.lookup_cons, hwritten other (List.mem_cons_of_mem _ hother)]
  | case4 written t ts ht ih =>
    rw [Token.paramNames_cons_of_ne ht] at hresolved hwritten
    rw [expand_cons ht, expand_cons ht, ih hresolved hwritten]

/-- Where no placeholder comes again, tokens are expanded one list after the other. -/
theorem expand_append (hdisjoint : ∀ name ∈ paramNames us, name ∉ paramNames ts) :
    expand resolved written (ts ++ us) =
      both (expand resolved written ts) (expand resolved written us) := by
  induction written, ts using expand.induct with
  | case1 written => exact (both_empty (merged_expand resolved written us)).symm
  | case2 written name ts tokens hname ih =>
    simp only [List.cons_append, expand, hname]
    rw [both_behind (Fragment.merged_pushTokens _) (merged_expand _ _ _),
      ih fun other hother hmem => hdisjoint other hother (List.mem_cons_of_mem _ hmem)]
  | case3 written name ts hname ih =>
    simp only [List.cons_append, expand, hname]
    conv_rhs => rw [both, bind_assoc]
    apply (merged_place name _).bind_congr
    intro value hvalue
    have hlater : expand resolved ((name, value.tokens) :: written) us =
        expand resolved written us := by
      apply expand_congr (fun _ _ => rfl)
      intro other hother
      apply lookup_cons_of_ne
      rintro rfl
      exact hdisjoint _ hother List.mem_cons_self
    have hboth := ih value fun other hother hmem =>
      hdisjoint other hother (List.mem_cons_of_mem _ hmem)
    rw [hboth, hlater]
    exact (both_behind hvalue (merged_expand _ _ _)).symm
  | case4 written t ts ht ih =>
    have hrest : ∀ name ∈ paramNames us, name ∉ paramNames ts := by
      intro name hname hmem
      apply hdisjoint name hname
      rw [Token.mem_paramNames] at hmem ⊢
      exact List.mem_cons_of_mem _ hmem
    rw [List.cons_append, expand_cons ht, expand_cons ht, ih hrest,
      both_behind (Fragment.merged_pushTokens _) (merged_expand _ _ _)]

/-- Of two tables of arguments each placeholder finds its own. -/
theorem expand_append_tables {table more : List (String × Arg)}
    (hts : ∀ name ∈ paramNames ts, (table.lookup name).isSome)
    (hus : ∀ name ∈ paramNames us, table.lookup name = none) :
    expand (table ++ more) [] (ts ++ us) = both (expand table [] ts) (expand more [] us) := by
  have hdisjoint : ∀ name ∈ paramNames us, name ∉ paramNames ts := by
    intro name hname hmem
    have hfound := hts name hmem
    rw [hus name hname] at hfound
    cases hfound
  have hleft : expand (table ++ more) [] ts = expand table [] ts := by
    apply expand_congr _ fun _ _ => rfl
    intro name hname
    obtain ⟨arg, harg⟩ := Option.isSome_iff_exists.mp (hts name hname)
    rw [List.lookup_append, harg]
    rfl
  have hright : expand (table ++ more) [] us = expand more [] us := by
    apply expand_congr _ fun _ _ => rfl
    intro name hname
    rw [List.lookup_append, hus name hname]
    rfl
  rw [expand_append hdisjoint, hleft, hright]

theorem expand_consText (written : List (String × List Token)) (s : String) (us : List Token) :
    expand resolved written (consText s us) = expand resolved written (.text s :: us) := by
  by_cases hs : s = ""
  · -- an empty text adds nothing
    subst hs
    exact (both_empty (merged_expand resolved written us)).symm
  · unfold consText
    rw [if_neg hs]
    split
    · next u rest =>
      simp only [expand, bind_assoc, pure_bind]
      apply (merged_expand _ _ _).bind_congr
      intro f hf
      have htexts : Fragment.empty.pushTokens [.text (s ++ u)] =
          Fragment.empty.pushTokens [.text s] ++ Fragment.empty.pushTokens [.text u] :=
        Fragment.text_append s u
      rw [htexts, (Fragment.merged_pushTokens _).append_assoc (Fragment.merged_pushTokens _)]
    · rfl

/-- Texts may be merged before they are written or after. -/
theorem expand_compact (written : List (String × List Token)) (ts : List Token) :
    expand resolved written (compact ts) = expand resolved written ts := by
  induction ts generalizing written with
  | nil => rfl
  | cons t ts ih =>
    cases t with
    | text s =>
      rw [compact, expand_consText]
      simp only [expand, ih]
    | _ => simp only [compact, expand, ih]

/-! ### Appending -/

theorem of_append_ok {b b' : Builder} {template : String} {args : Args}
    {resolved : List (String × Arg)}
    (hresolve : resolve (Text.trim template)
      (Template.placeholders (Template.scan (Text.trim template))) args = .ok resolved)
    (h : append template args b = (.ok (), b')) :
    ∃ piece names,
      expand resolved [] (Template.scan (Text.trim template)) b.names = (.ok piece, names) ∧
      b' = { b with body := b.body ++ (.text " " ++ piece), names } := by
  rw [append_of_resolve hresolve] at h
  rcases hrun : expand resolved [] (Template.scan (Text.trim template)) b.names with ⟨r, names⟩
  rw [hrun] at h
  cases r with
  | error e => cases h
  | ok piece =>
    cases h
    exact ⟨piece, names, rfl, rfl⟩

theorem resolve_exactly {text : String} {placeholders : List String} {args : List Arg}
    (h : args.length = placeholders.length) :
    resolve text placeholders (.positional args) = .ok (placeholders.zip args) := by
  apply resolve_positional h.ge
  intro hnone
  rw [hnone] at h
  exact List.eq_nil_of_length_eq_zero h

/-- What is put behind a statement may be put together before. -/
theorem append_text_assoc (f g h : Fragment) :
    (f ++ (.text " " ++ g)) ++ h = f ++ ((.text " " ++ g) ++ h) := by
  have hmerged : (Fragment.text " " ++ g).Merged := (Fragment.merged_text " ").append g
  have hsome : compact (Fragment.text " " ++ g).tokens ≠ [] := by
    rw [hmerged]
    show Token.append (compact [.text " "]) g.tokens ≠ []
    rw [Token.append_compact]
    exact Token.consText_ne_nil (by decide) _
  have htokens : Token.append (Token.append f.tokens (Fragment.text " " ++ g).tokens) h.tokens =
      Token.append f.tokens ((Fragment.text " " ++ g) ++ h).tokens := by
    rw [Token.append_append hsome, Fragment.append_tokens _ h, hmerged.append_tokens_eq,
      Token.append_compact_right]
  exact congrArg₂ Fragment.mk htokens (List.append_assoc ..)

section

variable {t₁ t₂ : String}

theorem placeholders_append_space (hend : Template.Terminated t₁)
    (hdisjoint : ∀ name ∈ Template.placeholders (Template.scan t₂),
      name ∉ Template.placeholders (Template.scan t₁)) :
    Template.placeholders (Template.scan (t₁ ++ " " ++ t₂)) =
      Template.placeholders (Template.scan t₁) ++ Template.placeholders (Template.scan t₂) := by
  unfold Template.placeholders at hdisjoint ⊢
  rw [Template.scan_append_space hend, Token.paramNames_compact, Token.paramNames_append_list,
    Token.paramNames_cons_text]
  apply distinct_append
  intro name hname hmem
  exact hdisjoint name (mem_distinct.mpr hname) (mem_distinct.mpr hmem)

theorem trim_append_space (ht₁ : t₁ ≠ "" ∧ Text.trim t₁ = t₁) (ht₂ : t₂ ≠ "" ∧ Text.trim t₂ = t₂) :
    Text.trim (t₁ ++ " " ++ t₂) = t₁ ++ " " ++ t₂ := by
  rw [Text.trim_eq_self]
  constructor
  · rw [String.append_assoc, Text.trimStart_append_eq_self ht₁.1]
    exact (Text.trim_eq_self.mp ht₁.2).1
  · rw [Text.trimEnd_append_eq_self ht₂.1]
    exact (Text.trim_eq_self.mp ht₂.2).2

end

/-- Two templates, one after the other, leave the statement as one template does that is made of
both with a space between them, where no literal of the first is open and the placeholders of the
second are others. -/
theorem append_consecutive {b b₁ b₂ : Builder} {t₁ t₂ : String} {a₁ a₂ : List Arg}
    (ht₁ : t₁ ≠ "" ∧ Text.trim t₁ = t₁) (ht₂ : t₂ ≠ "" ∧ Text.trim t₂ = t₂)
    (hend : Template.Terminated t₁)
    (hdisjoint : ∀ name ∈ Template.placeholders (Template.scan t₂),
      name ∉ Template.placeholders (Template.scan t₁))
    (ha₁ : a₁.length = (Template.placeholders (Template.scan t₁)).length)
    (ha₂ : a₂.length = (Template.placeholders (Template.scan t₂)).length)
    (hfirst : append t₁ (.positional a₁) b = (.ok (), b₁))
    (hsecond : append t₂ (.positional a₂) b₁ = (.ok (), b₂)) :
    append (t₁ ++ " " ++ t₂) (.positional (a₁ ++ a₂)) b = (.ok (), b₂) := by
  have htrim := trim_append_space ht₁ ht₂
  have hplaceholders := placeholders_append_space hend hdisjoint
  let table := (Template.placeholders (Template.scan t₁)).zip a₁
  let more := (Template.placeholders (Template.scan t₂)).zip a₂
  have hresolve : resolve (t₁ ++ " " ++ t₂)
      (Template.placeholders (Template.scan (t₁ ++ " " ++ t₂))) (.positional (a₁ ++ a₂)) =
      .ok (table ++ more) := by
    rw [resolve_exactly (by simp [hplaceholders, ha₁, ha₂]), hplaceholders,
      List.zip_append ha₁.symm]
  obtain ⟨piece₁, names₁, hrun₁, rfl⟩ :=
    of_append_ok (by rw [ht₁.2]; exact resolve_exactly ha₁) hfirst
  obtain ⟨piece₂, names₂, hrun₂, rfl⟩ :=
    of_append_ok (by rw [ht₂.2]; exact resolve_exactly ha₂) hsecond
  rw [ht₁.2] at hrun₁
  rw [ht₂.2] at hrun₂
  have hpieces : expand (table ++ more) [] (Template.scan (t₁ ++ " " ++ t₂)) b.names =
      (.ok (piece₁ ++ (.text " " ++ piece₂)), names₂) := by
    have hfound : ∀ name ∈ paramNames (Template.scan t₁), (table.lookup name).isSome := by
      intro name hname
      have hresolved : resolve t₁ (Template.placeholders (Template.scan t₁)) (.positional a₁) =
          .ok table := resolve_exactly ha₁
      exact isSome_lookup_of_resolve hresolved name (mem_distinct.mpr hname)
    have hmissed : ∀ name ∈ paramNames (.text " " :: Template.scan t₂),
        table.lookup name = none := by
      intro name hname
      rw [List.lookup_eq_none_iff]
      intro entry hentry
      have hother := hdisjoint name (mem_distinct.mpr hname)
      have hfirst := (List.of_mem_zip hentry).1
      simpa using fun heq : name = entry.1 => hother (heq ▸ hfirst)
    have hspace : expand more [] (.text " " :: Template.scan t₂) names₁ =
        (.ok (.text " " ++ piece₂), names₂) := by
      simp only [expand]
      rw [bind_apply, hrun₂]
      rfl
    rw [Template.scan_append_space hend, expand_compact, expand_append_tables hfound hmissed]
    exact both_of_ok hrun₁ hspace
  rw [append_of_resolve (by rw [htrim]; exact hresolve), htrim, hpieces]
  have hpiece : piece₁.Merged := merged_expand table [] (Template.scan t₁) b.names piece₁
    (by rw [hrun₁])
  have hbody : b.body ++ (.text " " ++ (piece₁ ++ (.text " " ++ piece₂))) =
      (b.body ++ (.text " " ++ piece₁)) ++ (.text " " ++ piece₂) := by
    rw [append_text_assoc, (Fragment.merged_text " ").append_assoc hpiece]
  dsimp only
  rw [hbody]

/-- A lone sign at the seam, a cast and a literal in front of it, a list and a value behind it. -/
theorem appended_across_space :
    let b : Builder := { Builder.new .sqlite with names := (Names.none.claim "a").2 }
    let t₁ := "x = :a OR y::text = 'b:c' OR z = @a :"
    let t₂ := "IN @a1 ORDER BY :b"
    let a₁ : List Arg := [.value (.varchar "s")]
    let a₂ : List Arg := [.wrapped (Dialect.sqlite.forList [.varchar "t", .varchar "u"]),
      .value (.varchar "v")]
    let b₂ := (append t₂ (.positional a₂) (append t₁ (.positional a₁) b).2).2
    append (t₁ ++ " " ++ t₂) (.positional (a₁ ++ a₂)) b = (.ok (), b₂) ∧
      b₂.sql = "x = :a1 OR y::text = 'b:c' OR z = :a1 : IN (:inParam0,:inParam1) ORDER BY :b" := by
  intro b t₁ t₂ a₁ a₂ b₂
  have hfirst : append t₁ (.positional a₁) b = (.ok (), (append t₁ (.positional a₁) b).2) :=
    ok_of_isOk (by decide +kernel)
  have hsecond : append t₂ (.positional a₂) (append t₁ (.positional a₁) b).2 = (.ok (), b₂) :=
    ok_of_isOk (by decide +kernel)
  have hdisjoint : ∀ name ∈ Template.placeholders (Template.scan t₂),
      name ∉ Template.placeholders (Template.scan t₁) := by decide +kernel
  refine ⟨?_, by decide +kernel⟩
  exact append_consecutive ⟨by decide, by decide +kernel⟩ ⟨by decide, by decide +kernel⟩
    (by decide +kernel) hdisjoint (by decide +kernel) (by decide +kernel) hfirst hsecond

end Building

end BoundSql
