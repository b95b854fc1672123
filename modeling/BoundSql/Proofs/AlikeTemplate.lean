import BoundSql.Proofs.AlikeExpression
import BoundSql.Proofs.Expansion

/-!
# Templates with arguments that differ in their values

Arguments are alike when they have the same text around values that are alike.  A template expands
to fragments that are alike, or its arguments do not resolve in either case.
-/

namespace BoundSql

variable {d : Dialect}

/-! ### Arguments -/

/-- Arguments with the same text around them and values that are alike. -/
inductive Arg.Alike (d : Dialect) : Arg → Arg → Prop where
  | value {v w : Value} (h : v.Alike d w) : Alike d (value v) (value w)
  | wrapped (template : List Token) {v w : Value} (h : v.Alike d w) :
    Alike d (wrapped ⟨template, v⟩) (wrapped ⟨template, w⟩)

/-- Arguments that are alike under one name. -/
structure Arg.AlikeEntry (d : Dialect) (x y : String × Arg) : Prop where
  name : x.1 = y.1
  arg : x.2.Alike d y.2

/-- Arguments that are alike one by one. -/
inductive Args.Alike (d : Dialect) : Args → Args → Prop where
  | positional {xs ys : List Arg} (h : List.Forall₂ (Arg.Alike d) xs ys) :
    Alike d (positional xs) (positional ys)
  | named {bag bag' : Bag} (h : List.Forall₂ (Arg.AlikeEntry d) bag.entries bag'.entries) :
    Alike d (named bag) (named bag')

/-- Operands of one kind whose values are alike; patterns and timestamps may be any. -/
inductive Operand.Alike (d : Dialect) : Operand → Operand → Prop where
  | value {v w : Value} (h : v.Alike d w) : Alike d (value v) (value w)
  | bound {v w : Value} (h : v.Alike d w) : Alike d (bound v) (bound w)
  | wrapped (template : String) {v w : Value} (h : v.Alike d w) :
    Alike d (wrapped template v) (wrapped template w)
  | pattern (method : Method) (s u : String) : Alike d (pattern method s) (pattern method u)
  | timestamp (t u : Calendar.Timestamp) : Alike d (timestamp t) (timestamp u)
  | list {vs ws : List Value} (h : List.Forall₂ d.SameMarker vs ws) : Alike d (list vs) (list ws)

/-- Operands that are alike one by one, under the same names. -/
inductive Operands.Alike (d : Dialect) : Operands → Operands → Prop where
  | positional {xs ys : List Operand} (h : List.Forall₂ (Operand.Alike d) xs ys) :
    Alike d (positional xs) (positional ys)
  | named {xs ys : List (String × Operand)}
    (h : List.Forall₂ (fun x y => x.1 = y.1 ∧ x.2.Alike d y.2) xs ys) :
    Alike d (named xs) (named ys)

theorem Operand.Alike.arg {x y : Operand} (h : x.Alike d y) : (x.arg d).Alike d (y.arg d) := by
  cases h with
  | value h => exact .value h
  | bound h => exact .wrapped _ h
  | wrapped template h => exact .wrapped _ h
  | pattern method s u => cases method <;> exact .wrapped _ (.scalar rfl)
  | timestamp t u => exact .wrapped _ (.scalar rfl)
  | list h =>
    simp only [Operand.arg, Dialect.forList]
    rw [h.length_eq]
    exact .wrapped _ (.list h)

namespace Bag

theorem set_alike {name : String} {x y : Arg} (h : x.Alike d y) {xs ys : List (String × Arg)}
    (hxs : List.Forall₂ (Arg.AlikeEntry d) xs ys) :
    List.Forall₂ (Arg.AlikeEntry d) (set name x xs) (set name y ys) := by
  induction hxs with
  | nil => exact .cons ⟨rfl, h⟩ .nil
  | @cons a b as bs hab has ih =>
    obtain ⟨other, old⟩ := a
    obtain ⟨other', old'⟩ := b
    obtain rfl : other = other' := hab.name
    rw [set, set]
    split
    · exact .cons ⟨rfl, h⟩ has
    · exact .cons hab ih

theorem ofList_alike {xs ys : List (String × Arg)}
    (h : List.Forall₂ (Arg.AlikeEntry d) xs ys) :
    List.Forall₂ (Arg.AlikeEntry d) (ofList xs).entries (ofList ys).entries := by
  have hfold : ∀ {bag bag' : Bag}, List.Forall₂ (Arg.AlikeEntry d) bag.entries bag'.entries →
      List.Forall₂ (Arg.AlikeEntry d)
        (xs.foldl (fun b entry => b.insert entry.1 entry.2) bag).entries
        (ys.foldl (fun b entry => b.insert entry.1 entry.2) bag').entries := by
    induction h with
    | nil => exact fun hbag => hbag
    | @cons a b as bs hab _ ih =>
      intro bag bag' hbag
      obtain ⟨name, x⟩ := a
      obtain ⟨name', y⟩ := b
      obtain rfl : name = name' := hab.name
      exact ih (set_alike hab.arg hbag)
  rw [ofList_eq_foldl, ofList_eq_foldl]
  exact hfold .nil

end Bag

theorem Operands.Alike.args {x y : Operands} (h : x.Alike d y) : (x.args d).Alike d (y.args d) := by
  cases h with
  | positional h =>
    refine .positional ?_
    rw [List.forall₂_map_left_iff, List.forall₂_map_right_iff]
    exact h.imp fun _ _ hxy => hxy.arg
  | named h =>
    refine .named (Bag.ofList_alike ?_)
    rw [List.forall₂_map_left_iff, List.forall₂_map_right_iff]
    exact h.imp fun _ _ hxy => ⟨hxy.1, hxy.2.arg⟩

theorem Args.Alike.isEmpty_eq {x y : Args} (h : x.Alike d y) : x.isEmpty = y.isEmpty := by
  cases h with
  | positional h => cases h <;> rfl
  | @named bag bag' h =>
    obtain ⟨entries⟩ := bag
    obtain ⟨entries'⟩ := bag'
    cases h <;> rfl

/-! ### Expanding -/

namespace Building

theorem lookup_alike {xs ys : List (String × Arg)} (h : List.Forall₂ (Arg.AlikeEntry d) xs ys)
    (name : String) : Option.Rel (Arg.Alike d) (xs.lookup name) (ys.lookup name) := by
  induction h with
  | nil => exact .none
  | @cons a b as bs hab _ ih =>
    obtain ⟨other, x⟩ := a
    obtain ⟨other', y⟩ := b
    obtain rfl : other = other' := hab.name
    rw [List.lookup_cons, List.lookup_cons]
    split
    · exact .some hab.arg
    · exact ih

theorem zip_alike (names : List String) {xs ys : List Arg} (h : List.Forall₂ (Arg.Alike d) xs ys) :
    List.Forall₂ (Arg.AlikeEntry d) (names.zip xs) (names.zip ys) := by
  induction names generalizing xs ys with
  | nil => exact .nil
  | cons name names ih =>
    cases h with
    | nil => exact .nil
    | cons hx hxs => exact .cons ⟨rfl, hx⟩ (ih hxs)

/-- Readers that agree on each item agree on a list of them. -/
theorem decodeEach_alike {α β γ : Type} {R : β → γ → Prop} {f : α → Except Fault β}
    {g : α → Except Fault γ} (h : ∀ x, SameOutcome R (f x) (g x)) (xs : List α) :
    SameOutcome (List.Forall₂ R) (decodeEach f xs) (decodeEach g xs) := by
  induction xs with
  | nil => exact .ok .nil
  | cons x xs ih =>
    have hx := h x
    rw [decodeEach, decodeEach]
    generalize f x = r at hx ⊢
    generalize g x = r' at hx ⊢
    cases hx with
    | error e e' => exact .error e e'
    | ok hyz =>
      simp only
      generalize decodeEach f xs = r at ih ⊢
      generalize decodeEach g xs = r' at ih ⊢
      cases ih with
      | error e e' => exact .error e e'
      | ok hrest => exact .ok (.cons hyz hrest)

theorem resolve_alike (template : String) (names : List String) {args args' : Args}
    (h : args.Alike d args') :
    SameOutcome (List.Forall₂ (Arg.AlikeEntry d)) (resolve template names args)
      (resolve template names args') := by
  unfold resolve
  rw [h.isEmpty_eq]
  split
  · exact .error _ _
  · cases h with
    | positional hxs =>
      simp only [hxs.length_eq]
      split
      · exact .error _ _
      · exact .ok (zip_alike names hxs)
    | named hbag =>
      refine decodeEach_alike ?_ names
      intro name
      simp only [Bag.get?]
      have hlookup := lookup_alike hbag name
      generalize List.lookup name _ = x at hlookup ⊢
      generalize List.lookup name _ = y at hlookup ⊢
      cases hlookup with
      | none => exact .error _ _
      | some hxy => exact .ok ⟨rfl, hxy⟩

theorem alike_place (name : String) {x y : Option Arg} (h : Option.Rel (Arg.Alike d) x y) :
    Claiming.Alike (Fragment.Alike d) (place name x) (place name y) := by
  cases h with
  | none => exact parallel_pure Fragment.alike_of_unbound
  | some h =>
    cases h with
    | value h => exact Claiming.alike_boundAs name h.sameMarker
    | wrapped template h => exact WrappedValue.alike_splice name template h

/-- A template expands in the same way for arguments that are alike. -/
theorem alike_expand {resolved resolved' : List (String × Arg)}
    (h : List.Forall₂ (Arg.AlikeEntry d) resolved resolved')
    (again : List (String × List Token)) (ts : List Token) :
    Claiming.Alike (Fragment.Alike d) (expand resolved again ts) (expand resolved' again ts) := by
  induction again, ts using expand.induct with
  | case1 again => exact parallel_pure Fragment.alike_of_unbound
  | case2 again name ts tokens hname ih =>
    simp only [expand, hname]
    apply ih.bind
    intro rest rest' hrest
    exact parallel_pure (Fragment.alike_of_unbound.append hrest)
  | case3 again name ts hname ih =>
    simp only [expand, hname]
    refine (alike_place name (lookup_alike h name)).bind ?_
    intro value value' hvalue
    rw [← hvalue.tokens]
    refine (ih value).bind ?_
    intro rest rest' hrest
    exact parallel_pure (hvalue.append hrest)
  | case4 again t ts ht ih =>
    rw [expand_cons ht, expand_cons ht]
    apply ih.bind
    intro rest rest' hrest
    exact parallel_pure (Fragment.alike_of_unbound.append hrest)

end Building

end BoundSql
