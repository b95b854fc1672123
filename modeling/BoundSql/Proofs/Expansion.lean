import BoundSql.Proofs.Binding

/-!
# Expanding templates

A template is expanded by putting for each placeholder what stands for its argument, which is
claimed; a placeholder that comes again refers to the names known by then (`sound_expand`).

The expansion comes to a placeholder that nothing stands for exactly if it makes a difference what
further arguments there are (`meetsUnresolved_iff`).  The arguments are resolved before: each
placeholder has one, so that this never happens (`leavesUnresolved_eq_false`).
-/

namespace BoundSql

open Claiming

variable {known : List String}

/-! ### Templates -/

namespace Building

/-- What stands for a placeholder is claimed, if there is anything to stand for it. -/
theorem sound_place (name : String) (arg : Option Arg)
    (harg : ∀ w, arg = some (.wrapped w) → w.Proper) : Sound known (place name arg) := by
  cases arg with
  | none =>
    intro names
    exact soundFrom_pure (.of_unbound rfl (by simp))
  | some arg =>
    cases arg with
    | value v => exact sound_boundAs name v
    | wrapped w => exact WrappedValue.sound_splice name w (harg w rfl)

/-- What is no placeholder is written as it is. -/
theorem expand_cons {resolved : List (String × Arg)} {again : List (String × List Token)}
    {t : Token} {ts : List Token} (ht : ∀ name, t ≠ .param name) :
    expand resolved again (t :: ts) =
      expand resolved again ts >>= fun rest =>
        pure (Fragment.empty.pushTokens [t] ++ rest) := by
  cases t with
  | param name => exact (ht name rfl).elim
  | _ => rfl

/-- Tokens are written again between text without markers. -/
theorem sound_rewrite {c : Claiming Fragment} {ts : List Token} (hc : Sound known c)
    (hts : Token.paramNames ts ⊆ known) :
    Sound known (c >>= fun rest => pure (Fragment.empty.pushTokens ts ++ rest)) := by
  intro names
  apply SoundFrom.bind hc
  intro rest after hrest hgrow
  have hfirst : (Fragment.empty.pushTokens ts).Claimed known names names :=
    .of_unbound rfl (by simpa using hts)
  exact soundFrom_pure (hfirst.append (by simpa [Fragment.names] using hrest)
    (List.Subset.refl _) hgrow)

/-- The induction is on the tokens that are left; the markers of what was written for a placeholder
are known, so that writing it again claims nothing. -/
theorem sound_expand (resolved : List (String × Arg))
    (hresolved : ∀ name w, resolved.lookup name = some (.wrapped w) → w.Proper)
    (known : List String) (again : List (String × List Token)) (ts : List Token)
    (hagain : ∀ name tokens, again.lookup name = some tokens → Token.paramNames tokens ⊆ known) :
    Sound known (expand resolved again ts) := by
  induction again, ts using expand.induct generalizing known with
  | case1 again =>
    intro names
    exact soundFrom_pure (.of_unbound rfl (by simp))
  | case2 again name ts tokens hname ih =>
    simp only [expand, hname]
    exact sound_rewrite (ih known hagain) (hagain name tokens hname)
  | case3 again name ts hname ih =>
    simp only [expand, hname]
    refine Sound.map₂ (sound_place name _ (hresolved name)) ?_ (by simp) (by simp)
    intro value hvalue
    apply ih value (value.names ++ known)
    intro other tokens hother marker hmarker
    rw [List.lookup_cons] at hother
    split at hother
    · obtain rfl : value.tokens = tokens := by simpa using hother
      exact List.mem_append.mpr (hvalue.marked marker hmarker)
    · exact List.mem_append.mpr (.inr (hagain other tokens hother hmarker))
  | case4 again t ts ht ih =>
    rw [expand_cons ht]
    apply sound_rewrite (ih known hagain)
    rw [Token.paramNames_cons_of_ne ht]
    exact List.nil_subset _

end Building

/-! ### Arguments -/

/-- The arguments, without the names they are given under. -/
def Args.values : Args → List Arg
  | positional values => values
  | named bag => bag.entries.map (·.2)

/-! ### Unresolved placeholders -/

namespace Building

/-- Whether expanding the tokens comes to a placeholder that nothing stands for. -/
def meetsUnresolved (resolved : List (String × Arg)) (again : List (String × List Token)) :
    List Token → Names → Bool
  | [], _ => false
  | .param name :: ts, names =>
    match again.lookup name with
    | some _ => meetsUnresolved resolved again ts names
    | none =>
      match resolved.lookup name with
      | none => true
      | some arg =>
        match place name (some arg) names with
        | (.error _, _) => false
        | (.ok value, names) => meetsUnresolved resolved ((name, value.tokens) :: again) ts names
  | _ :: ts, names => meetsUnresolved resolved again ts names

/-- Whether appending a template comes to a placeholder that nothing stands for. -/
def leavesUnresolved (template : String) (args : Args) (b : Builder) : Bool :=
  let tokens := Template.scan (Text.trim template)
  match resolve (Text.trim template) (Template.placeholders tokens) args with
  | .error _ => false
  | .ok resolved => meetsUnresolved resolved [] tokens b.names

section Unresolved

variable {resolved : List (String × Arg)} {again : List (String × List Token)} {ts : List Token}
  {names : Names}

/-- More arguments make no difference where each placeholder has one. -/
theorem expand_append_of_resolved (more : List (String × Arg))
    (h : meetsUnresolved resolved again ts names = false) :
    expand (resolved ++ more) again ts names = expand resolved again ts names := by
  induction ts generalizing again names with
  | nil => rfl
  | cons t ts ih =>
    cases t with
    | param name =>
      simp only [meetsUnresolved] at h
      simp only [expand]
      cases hagain : again.lookup name with
      | some tokens =>
        rw [hagain] at h
        dsimp only
        rw [bind_apply, bind_apply, ih h]
      | none =>
        rw [hagain] at h
        dsimp only at h ⊢
        cases hlookup : resolved.lookup name with
        | none =>
          rw [hlookup] at h
          cases h
        | some arg =>
          rw [hlookup] at h
          dsimp only at h
          rw [List.lookup_append, hlookup, Option.some_or, bind_apply, bind_apply]
          rcases hplace : place name (some arg) names with ⟨_ | value, after⟩
          · rfl
          · rw [hplace] at h
            dsimp only
            rw [bind_apply, bind_apply, ih h]
    | _ =>
      rw [expand_cons (by simp), expand_cons (by simp), bind_apply, bind_apply, ih h]

/-- A text without markers cannot stand for a list of items. -/
theorem place_of_unmarked (name : String) (items : List Value) (t : SqlType) (names : Names)
    (hitems : items ≠ []) :
    place name (some (.wrapped ⟨[], .list items t⟩)) names =
      (.error (.count (.markers name 0 items.length)), names) := by
  have hcount : ¬ 0 = items.length := fun h => hitems (List.length_eq_zero_iff.mp h.symm)
  show (if 0 = items.length then _ else _ : Except Fault Fragment × Names) = _
  rw [if_neg hcount]
  rfl

/-- What is given for a placeholder that nothing stands for is what the expansion comes to next. -/
theorem expand_append_of_unresolved (h : meetsUnresolved resolved again ts names = true) :
    ∃ name, ∀ arg e, (∀ names, (place name (some arg) names).1 = .error e) →
      (expand (resolved ++ [(name, arg)]) again ts names).1 = .error e := by
  induction ts generalizing again names with
  | nil => cases h
  | cons t ts ih =>
    cases t with
    | param name =>
      simp only [meetsUnresolved] at h
      simp only [expand]
      cases hagain : again.lookup name with
      | some tokens =>
        rw [hagain] at h
        obtain ⟨missing, hmissing⟩ := ih h
        exact ⟨missing, fun arg e harg => bind_error (hmissing arg e harg)⟩
      | none =>
        rw [hagain] at h
        dsimp only at h ⊢
        cases hlookup : resolved.lookup name with
        | none =>
          refine ⟨name, ?_⟩
          intro arg e harg
          apply bind_error
          rw [List.lookup_append, hlookup, Option.none_or, List.lookup_cons_self]
          exact harg names
        | some arg =>
          rw [hlookup] at h
          dsimp only at h
          rcases hplace : place name (some arg) names with ⟨_ | value, after⟩
          · rw [hplace] at h
            cases h
          · rw [hplace] at h
            obtain ⟨missing, hmissing⟩ := ih h
            refine ⟨missing, ?_⟩
            intro other e hother
            rw [List.lookup_append, hlookup, Option.some_or, bind_apply, hplace]
            exact bind_error (hmissing other e hother)
    | _ =>
      obtain ⟨missing, hmissing⟩ := ih h
      refine ⟨missing, ?_⟩
      intro arg e harg
      rw [expand_cons (by simp)]
      exact bind_error (hmissing arg e harg)

/-- Expanding comes to a placeholder that nothing stands for exactly if it makes a difference what
more arguments there are. -/
theorem meetsUnresolved_iff :
    meetsUnresolved resolved again ts names = true ↔
      ∃ more, expand (resolved ++ more) again ts names ≠ expand resolved again ts names := by
  constructor
  · intro h
    by_contra hsame
    have hsame : ∀ more, expand (resolved ++ more) again ts names =
        expand resolved again ts names := by simpa using hsame
    obtain ⟨name, hname⟩ := expand_append_of_unresolved h
    -- lists of one and of two items are both refused for want of a marker, but not by one fault
    have hfault : ∀ items : List Value, items ≠ [] → (expand resolved again ts names).1 =
        .error (.count (.markers name 0 items.length)) := by
      intro items hitems
      rw [← hsame [(name, .wrapped ⟨[], .list items .unknown⟩)]]
      apply hname
      intro names
      rw [place_of_unmarked name items .unknown names hitems]
    have hone := hfault [.null .unknown] (by simp)
    have htwo := hfault [.null .unknown, .null .unknown] (by simp)
    rw [hone] at htwo
    cases htwo
  · rintro ⟨more, hmore⟩
    by_contra hmeets
    exact hmore (expand_append_of_resolved more (Bool.eq_false_iff.mpr hmeets))

/-- So does appending a template, with the arguments that its placeholders are resolved to. -/
theorem leavesUnresolved_iff (template : String) (args : Args) (b : Builder) :
    leavesUnresolved template args b = true ↔
      ∃ resolved more,
        resolve (Text.trim template) (Template.placeholders (Template.scan (Text.trim template)))
          args = .ok resolved ∧
        expand (resolved ++ more) [] (Template.scan (Text.trim template)) b.names ≠
          expand resolved [] (Template.scan (Text.trim template)) b.names := by
  simp only [leavesUnresolved]
  cases resolve (Text.trim template) (Template.placeholders (Template.scan (Text.trim template)))
    args with
  | error e => simp
  | ok resolved => simp [meetsUnresolved_iff]

end Unresolved

theorem mem_distinct {x : String} {xs : List String} : x ∈ distinct xs ↔ x ∈ xs := by
  induction xs with
  | nil => rfl
  | cons y ys ih =>
    simp only [distinct, List.mem_cons, List.mem_filter, ih]
    by_cases hxy : x = y <;> simp [hxy]

/-- What a reader of a list returns are the results of its items. -/
theorem mem_of_decodeEach {α β : Type} {f : α → Except Fault β} {xs : List α} {ys : List β}
    (h : decodeEach f xs = .ok ys) :
    (∀ x ∈ xs, ∃ y ∈ ys, f x = .ok y) ∧ ∀ y ∈ ys, ∃ x ∈ xs, f x = .ok y := by
  induction xs generalizing ys with
  | nil =>
    obtain rfl : [] = ys := by simpa [decodeEach] using h
    simp
  | cons x xs ih =>
    simp only [decodeEach] at h
    cases hx : f x with
    | error e => simp [hx] at h
    | ok y =>
      cases hrest : decodeEach f xs with
      | error e => simp [hx, hrest, Except.map] at h
      | ok rest =>
        obtain rfl : y :: rest = ys := by simpa [hx, hrest, Except.map] using h
        obtain ⟨hto, hfrom⟩ := ih hrest
        constructor
        · intro z hz
          rcases List.mem_cons.mp hz with rfl | hz
          · exact ⟨y, List.mem_cons_self, hx⟩
          · obtain ⟨w, hw, hfw⟩ := hto z hz
            exact ⟨w, List.mem_cons_of_mem _ hw, hfw⟩
        · intro w hw
          rcases List.mem_cons.mp hw with rfl | hw
          · exact ⟨x, List.mem_cons_self, hx⟩
          · obtain ⟨z, hz, hfz⟩ := hfrom w hw
            exact ⟨z, List.mem_cons_of_mem _ hz, hfz⟩

/-- What placeholders are resolved to was among the arguments. -/
theorem mem_values_of_resolve {template : String} {names : List String} {args : Args}
    {resolved : List (String × Arg)} (h : resolve template names args = .ok resolved) :
    ∀ entry ∈ resolved, entry.2 ∈ args.values := by
  intro entry hentry
  unfold resolve at h
  split at h
  · cases h
  · cases args with
    | positional values =>
      simp only at h
      split at h
      · cases h
      · cases h
        exact (List.of_mem_zip hentry).2
    | named bag =>
      obtain ⟨name, -, hname⟩ := (mem_of_decodeEach h).2 entry hentry
      split at hname
      · next arg hget =>
        cases hname
        exact List.mem_map_of_mem (mem_of_lookup hget)
      · cases hname

/-- Every name is resolved to an argument. -/
theorem isSome_lookup_of_resolve {template : String} {names : List String} {args : Args}
    {resolved : List (String × Arg)} (h : resolve template names args = .ok resolved) :
    ∀ name ∈ names, (resolved.lookup name).isSome := by
  intro name hname
  rw [List.lookup_isSome_iff]
  unfold resolve at h
  split at h
  · cases h
  · cases args with
    | positional values =>
      simp only at h
      split at h
      · cases h
      · next hcount =>
        cases h
        obtain ⟨i, hi, rfl⟩ := List.getElem_of_mem hname
        have hin : i < (names.zip values).length := by simp; omega
        refine ⟨(names.zip values)[i], List.getElem_mem hin, ?_⟩
        simp
    | named bag =>
      simp only at h
      obtain ⟨entry, hentry, harg⟩ := (mem_of_decodeEach h).1 name hname
      refine ⟨entry, hentry, ?_⟩
      cases hget : bag.get? name with
      | none => simp [hget] at harg
      | some arg =>
        obtain rfl : (name, arg) = entry := by simpa [hget] using harg
        simp

theorem meetsUnresolved_eq_false (resolved : List (String × Arg))
    (again : List (String × List Token)) (ts : List Token) (names : Names)
    (hresolved : ∀ name ∈ Token.paramNames ts, (resolved.lookup name).isSome) :
    meetsUnresolved resolved again ts names = false := by
  induction ts generalizing again names with
  | nil => rfl
  | cons t ts ih =>
    cases t with
    | param name =>
      have hrest : ∀ other ∈ Token.paramNames ts, (resolved.lookup other).isSome := by
        intro other hother
        exact hresolved other (by simp [hother])
      simp only [meetsUnresolved]
      split
      · exact ih again names hrest
      · have hname := hresolved name (by simp)
        cases hlookup : resolved.lookup name with
        | none => simp [hlookup] at hname
        | some arg =>
          simp only
          split
          · rfl
          · exact ih _ _ hrest
    | _ => exact ih again names (by simpa using hresolved)

/-- Appending a template never comes to a placeholder that nothing stands for. -/
theorem leavesUnresolved_eq_false (template : String) (args : Args) (b : Builder) :
    leavesUnresolved template args b = false := by
  unfold leavesUnresolved
  simp only
  split
  · rfl
  · next resolved h =>
    apply meetsUnresolved_eq_false resolved [] _ b.names
    intro name hname
    exact isSome_lookup_of_resolve h name (mem_distinct.mpr hname)

end Building

/-! ### Operands -/

/-- Entries of a bag were put there. -/
theorem Bag.mem_of_ofList {entries : List (String × Arg)} {entry : String × Arg}
    (h : entry ∈ (Bag.ofList entries).entries) : entry ∈ entries := by
  have hset : ∀ (name : String) (arg : Arg) (old : List (String × Arg)),
      ∀ entry ∈ Bag.set name arg old, entry = (name, arg) ∨ entry ∈ old := by
    intro name arg old
    induction old with
    | nil => simp [Bag.set]
    | cons first rest ih =>
      intro entry hentry
      simp only [Bag.set] at hentry
      split at hentry
      · rcases List.mem_cons.mp hentry with h | h
        · exact .inl h
        · exact .inr (List.mem_cons_of_mem _ h)
      · rcases List.mem_cons.mp hentry with h | h
        · exact .inr (h ▸ List.mem_cons_self)
        · exact (ih entry h).imp_right (List.mem_cons_of_mem _)
  have hfold : ∀ (entries : List (String × Arg)) (bag : Bag),
      ∀ entry ∈ (entries.foldl (fun b entry => b.insert entry.1 entry.2) bag).entries,
        entry ∈ entries ∨ entry ∈ bag.entries := by
    intro entries
    induction entries with
    | nil => simp
    | cons first rest ih =>
      intro bag entry hentry
      rcases ih (bag.insert first.1 first.2) entry hentry with h | h
      · exact .inl (List.mem_cons_of_mem _ h)
      · rcases hset first.1 first.2 bag.entries entry h with rfl | h
        · exact .inl List.mem_cons_self
        · exact .inr h
  rw [Bag.ofList_eq_foldl] at h
  simpa [Bag.empty] using hfold entries Bag.empty entry h

/-- Every marker of the texts around the arguments is one of a list. -/
def Args.Proper (args : Args) : Prop := ∀ w, .wrapped w ∈ args.values → w.Proper

theorem Operands.proper_args (operands : Operands) (d : Dialect) : (operands.args d).Proper := by
  intro w hw
  cases operands with
  | positional values =>
    obtain ⟨x, -, hx⟩ := List.mem_map.mp hw
    exact x.proper_arg d w hx
  | named entries =>
    obtain ⟨⟨name, arg⟩, hentry, rfl⟩ := List.mem_map.mp hw
    obtain ⟨⟨n, x⟩, -, hx⟩ := List.mem_map.mp (Bag.mem_of_ofList hentry)
    exact x.proper_arg d w (congrArg Prod.snd hx)

theorem Args.Proper.of_resolve {template : String} {names : List String} {args : Args}
    {resolved : List (String × Arg)} (hargs : args.Proper)
    (h : Building.resolve template names args = .ok resolved) (name : String) (w : WrappedValue)
    (hw : resolved.lookup name = some (.wrapped w)) : w.Proper :=
  hargs w (Building.mem_values_of_resolve h _ (mem_of_lookup hw))

end BoundSql
