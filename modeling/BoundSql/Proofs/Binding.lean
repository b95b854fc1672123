import BoundSql.Proofs.Claiming
import BoundSql.Proofs.Composition
import BoundSql.Proofs.Operation

/-!
# Every way of binding a value claims its name

The values of a statement are bound on four ways: under a claimed name, in the slots of a text, at
the markers of a list, and by renaming what another statement bound.  Each of them is sound in the
sense of `Claiming.Sound`, and so are the compilation of expressions and the expansion of templates
that use them.
-/

namespace BoundSql

variable {known : List String}

/-! ### Lists of values -/

theorem Token.intersperse_cons (s t : Token) (ts : List Token) :
    (t :: ts).intersperse s = t :: ts.flatMap fun u => [s, u] := by
  induction ts generalizing t with
  | nil => rfl
  | cons u ts ih =>
    rw [List.intersperse_cons_cons, ih]
    rfl

namespace Dialect

/-- The names that the markers of a list ask for, numbered from `i` on. -/
def listNames (i n : Nat) : List String :=
  (List.range' i n).map fun j => "inParam" ++ Numeric.natText j

theorem listNames_succ (i n : Nat) :
    listNames i (n + 1) = ("inParam" ++ Numeric.natText i) :: listNames (i + 1) n := rfl

theorem paramNames_listMarkers (i n : Nat) :
    Token.paramNames (listMarkers i n) = listNames i n := by
  induction n generalizing i with
  | zero => rfl
  | succ n ih => by_cases hi : i = 0 <;> simp [listMarkers, listNames_succ, hi, ih]

end Dialect

/-! ### Values with text around them -/

namespace WrappedValue

/-- The text of the value carries markers only where the items of a list are bound to them. -/
def Proper (w : WrappedValue) : Prop :=
  (∃ items item, w.value = .list items item) ∨ w.markers = []

theorem bindMarkers_claimed (known : List String) (names : Names) (ts : List Token)
    (vs : List Value) (hlength : (Token.paramNames ts).length = vs.length) :
    names.taken ⊆ (bindMarkers names ts vs).2.taken ∧
      Fragment.Claimed known names (bindMarkers names ts vs).2
        ⟨(bindMarkers names ts vs).1.1, (bindMarkers names ts vs).1.2⟩ := by
  induction ts generalizing names vs with
  | nil =>
    simp only [bindMarkers]
    exact ⟨List.Subset.refl _, .of_unbound rfl (by simp)⟩
  | cons t ts ih =>
    cases t with
    | param stale =>
      cases vs with
      | nil => simp at hlength
      | cons v vs =>
        have hrest : (Token.paramNames ts).length = vs.length := by simpa using hlength
        obtain ⟨hkeep, hclaimed⟩ := ih (names.claim stale).2 vs hrest
        have hgrow := Names.taken_subset_claim names stale
        have hfirst : (Fragment.param (names.claim stale).1 v).Claimed known names
            (names.claim stale).2 := Fragment.claimed_param names stale v
        have hmore := hclaimed.mono
          (List.subset_append_right (Fragment.param (names.claim stale).1 v).names known)
        refine ⟨List.Subset.trans hgrow hkeep, ?_⟩
        refine (hfirst.append hmore hgrow hkeep).congr ?_ rfl
        simp [bindMarkers]
    | _ =>
      obtain ⟨hkeep, hclaimed⟩ := ih names vs (by simpa using hlength)
      refine ⟨hkeep, hclaimed.congr ?_ rfl⟩
      simp [bindMarkers]

/-- Each slot becomes a marker. -/
theorem paramNames_fillSlot (name : String) (ts : List Token) (hts : Token.paramNames ts = []) :
    Token.paramNames (ts.map (fillSlot name)) = List.replicate (ts.count .slot) name := by
  induction ts with
  | nil => rfl
  | cons t ts ih =>
    cases t with
    | param other => simp at hts
    | slot =>
      rw [List.count_cons_self, List.replicate_succ, ← ih (by simpa using hts)]
      rfl
    | _ =>
      rw [List.count_cons_of_ne (by simp), ← ih (by simpa using hts)]
      rfl

/-- A value in the slots of a text. -/
theorem fillSlots_claimed (w : WrappedValue) (hw : w.markers = []) (names : Names)
    (base : String) :
    Fragment.Claimed known names (names.claim base).2
      ⟨Token.compact (w.template.map (fillSlot (names.claim base).1)),
        [⟨(names.claim base).1, w.value⟩]⟩ := by
  have hplain : (Fragment.param (names.claim base).1 w.value).Claimed known names
      (names.claim base).2 := Fragment.claimed_param names base w.value
  refine { hplain with marked := ?_ }
  intro marker hmarker
  rw [Token.paramNames_compact, paramNames_fillSlot _ _ hw] at hmarker
  rw [List.eq_of_mem_replicate hmarker]
  exact .inl (by simp [Fragment.names])

/-- A list is bound to as many markers as it has items, or not at all. -/
theorem splice_list (template : List Token) (items : List Value) (item : SqlType) (name : String)
    (names : Names) :
    splice name ⟨template, .list items item⟩ names =
      if (Token.paramNames template).length = items.length then
        (.ok ⟨Token.compact (bindMarkers names template items).1.1,
          (bindMarkers names template items).1.2⟩, (bindMarkers names template items).2)
      else
        (.error (.count (.markers name (Token.paramNames template).length items.length)), names) :=
  rfl

/-- The markers of a list, with commas in front of them, are given the names that are claimed for
them and stand for the items, in order. -/
theorem bindMarkers_listMarkers (i : Nat) (vs : List Value) (names : Names) :
    ∃ bindings : List Binding,
      bindings.map Binding.name = (names.claimAll (Dialect.listNames (i + 1) vs.length)).1 ∧
      bindings.map Binding.value = vs ∧
      bindMarkers names (Dialect.listMarkers (i + 1) vs.length ++ [.text ")"]) vs =
        (((bindings.map Binding.name).flatMap (fun name => [Token.text ",", .param name]) ++
          [.text ")"], bindings), (names.claimAll (Dialect.listNames (i + 1) vs.length)).2) := by
  induction vs generalizing i names with
  | nil => exact ⟨[], rfl, rfl, rfl⟩
  | cons v vs ih =>
    obtain ⟨bindings, hnames, hvalues, hrun⟩ :=
      ih (i + 1) (names.claim ("inParam" ++ Numeric.natText (i + 1))).2
    refine ⟨⟨(names.claim ("inParam" ++ Numeric.natText (i + 1))).1, v⟩ :: bindings, ?_, ?_, ?_⟩
    · simp [Dialect.listNames_succ, Names.claimAll, hnames]
    · simp [hvalues]
    · simp [Dialect.listNames_succ, Dialect.listMarkers, bindMarkers, Names.claimAll, hrun]

/-- A list stands in parentheses, its items as markers with commas between them. -/
theorem splice_forList (d : Dialect) (name : String) (vs : List Value) (names : Names) :
    ∃ bindings : List Binding,
      bindings.map Binding.name = (names.claimAll (Dialect.listNames 0 vs.length)).1 ∧
      bindings.map Binding.value = vs ∧
      (d.forList vs).splice name names =
        (.ok ⟨Token.compact (.text "(" ::
          ((bindings.map Binding.name).map Token.param).intersperse (.text ",") ++ [.text ")"]),
            bindings⟩, (names.claimAll (Dialect.listNames 0 vs.length)).2) := by
  have hlength : (Token.paramNames (d.forList vs).template).length = vs.length := by
    simp [Dialect.forList, Dialect.paramNames_listMarkers, Dialect.listNames]
  have hsplice := splice_list (d.forList vs).template vs
    ((vs.head?.map (·.type)).getD .unknown) name names
  rw [if_pos hlength] at hsplice
  cases vs with
  | nil => exact ⟨[], rfl, rfl, hsplice⟩
  | cons v vs =>
    obtain ⟨rest, hnames, hvalues, hrun⟩ :=
      bindMarkers_listMarkers 0 vs (names.claim ("inParam" ++ Numeric.natText 0)).2
    refine ⟨⟨(names.claim ("inParam" ++ Numeric.natText 0)).1, v⟩ :: rest, ?_, ?_, ?_⟩
    · simp [Dialect.listNames_succ, Names.claimAll, hnames]
    · simp [hvalues]
    · refine Eq.trans hsplice ?_
      simp [Dialect.forList, Dialect.listMarkers, bindMarkers, hrun, Dialect.listNames_succ,
        Names.claimAll, Token.intersperse_cons, List.flatMap_map]

theorem sound_splice (name : String) (w : WrappedValue) (hw : w.Proper) :
    Claiming.Sound known (w.splice name) := by
  intro names
  unfold Claiming.SoundFrom splice
  split
  · next items item hvalue =>
    split
    · next hlength =>
      obtain ⟨hgrow, hclaimed⟩ := bindMarkers_claimed known names w.template items hlength
      refine ⟨hgrow, ?_⟩
      intro f hf
      simp only [Except.ok.injEq] at hf
      subst hf
      exact hclaimed.congr (by simp) rfl
    · exact ⟨List.Subset.refl _, by simp⟩
  · next value hvalue =>
    have hmarkers : w.markers = [] := by
      rcases hw with ⟨items, item, hlist⟩ | hmarkers
      · exact absurd hlist (hvalue items item)
      · exact hmarkers
    refine ⟨Names.taken_subset_claim names name, ?_⟩
    intro f hf
    simp only [Except.ok.injEq] at hf
    subst hf
    exact fillSlots_claimed w hmarkers names name

/-- What a template says around a value carries no marker. -/
theorem markers_wrapped (template : String) (v : Value) : (wrapped template v).markers = [] := by
  simp only [markers, wrapped, Token.paramNames_filter_text, Token.paramNames_intersperse_slot]
  apply List.eq_nil_iff_forall_not_mem.mpr
  intro name hname
  obtain ⟨piece, -, hpiece⟩ := List.mem_map.mp (Token.mem_paramNames.mp hname)
  cases hpiece

theorem proper_bound (v : Value) : (bound v).Proper := .inr rfl

theorem proper_wrapped (template : String) (v : Value) : (wrapped template v).Proper :=
  .inr (markers_wrapped template v)

end WrappedValue

theorem Dialect.proper_pattern (d : Dialect) (method : Method) (s : String) :
    (d.pattern method s).Proper := by
  cases method <;> exact WrappedValue.proper_bound _

theorem Dialect.proper_forList (d : Dialect) (vs : List Value) : (d.forList vs).Proper :=
  .inl ⟨_, _, rfl⟩

/-- Every operand makes an argument whose markers, if it has any, are those of a list. -/
theorem Operand.proper_arg (d : Dialect) (x : Operand) (w : WrappedValue)
    (hw : x.arg d = .wrapped w) : w.Proper := by
  cases x with
  | value v => cases hw
  | bound v =>
    cases hw
    exact WrappedValue.proper_bound v
  | wrapped template v =>
    cases hw
    exact WrappedValue.proper_wrapped template v
  | pattern method s =>
    cases hw
    exact d.proper_pattern method s
  | timestamp t =>
    cases hw
    exact WrappedValue.proper_wrapped _ _
  | list values =>
    cases hw
    exact d.proper_forList values

/-! ### Expressions -/

namespace Dialect

variable (d : Dialect)

@[simp] theorem negatedIf_bindings (negated : Bool) (f : Fragment) :
    (negatedIf negated f).bindings = f.bindings := by
  cases negated <;> simp [negatedIf]

@[simp] theorem paramNames_negatedIf (negated : Bool) (f : Fragment) :
    Token.paramNames (negatedIf negated f).tokens = Token.paramNames f.tokens := by
  cases negated <;> simp [negatedIf]

@[simp] theorem joined_bindings (op : BinaryOp) (l r : Fragment) :
    (joined op l r).bindings = l.bindings ++ r.bindings := by
  simp [joined]

@[simp] theorem paramNames_joined (op : BinaryOp) (l r : Fragment) :
    Token.paramNames (joined op l r).tokens =
      Token.paramNames l.tokens ++ Token.paramNames r.tokens := by
  simp [joined]

end Dialect

/-- What expressions are put together from is claimed, and stays so between texts. -/
theorem Claiming.Composed.sound {c : Claiming Fragment} (hc : Composed c) :
    Claiming.Sound known c := by
  induction hc generalizing known with
  | fault e => exact sound_fault e
  | written s => exact sound_written s
  | marker base v => exact sound_boundAs base v
  | pattern d method s name => exact WrappedValue.sound_splice name _ (d.proper_pattern method s)
  | list d vs name => exact WrappedValue.sound_splice name _ (d.proper_forList vs)
  | after s hc ih => exact Sound.map ih (by simp) (by simp)
  | negated negated hc ih => exact Sound.map ih (by simp) (by simp)
  | joined negated op hl hr ihl ihr =>
    exact Sound.map₂ ihl (fun _ _ => ihr) (by simp) (by simp)

/-- Whatever clause an expression is compiled for, its fragment is claimed. -/
theorem Dialect.sound_compile (d : Dialect) (scope : Scope) (clause : Clause) (n : Node) :
    Claiming.Sound known (d.compile scope clause n) :=
  (d.composed_compile scope clause n).sound

end BoundSql
