import BoundSql.Proofs.Expansion

/-!
# Fragments that open no filter clause

A join takes the filter clause of a statement with it: what stands behind the last opening of one.
Where it cuts is known if nothing behind that opening opens another one.  Conditions do not, nor do
statements in parentheses, whose filter clauses are closed; a template does not unless one of its
arguments brings an opening along (`Building.closed_expand`).
-/

namespace BoundSql

namespace Token

variable {ts us : List Token}

theorem sentinel_mem_compact : .sentinel ∈ compact ts ↔ .sentinel ∈ ts := mem_compact (by simp)

theorem sentinel_mem_append : .sentinel ∈ append ts us ↔ .sentinel ∈ ts ∨ .sentinel ∈ us :=
  mem_append (by simp)

/-- Texts do not merge across the opening of a filter clause. -/
theorem compact_append_sentinel (ts us : List Token) :
    compact (ts ++ .sentinel :: us) = compact ts ++ .sentinel :: compact us := by
  have hconsText : ∀ s (vs : List Token), consText s (vs ++ .sentinel :: compact us) =
      consText s vs ++ .sentinel :: compact us := by
    intro s vs
    unfold consText
    split
    · rfl
    · cases vs with
      | nil => rfl
      | cons v vs => cases v <;> rfl
  induction ts with
  | nil => rfl
  | cons t ts ih =>
    cases t with
    | text s =>
      simp only [List.cons_append, compact]
      rw [ih, hconsText]
    | _ =>
      simp only [List.cons_append, compact]
      rw [ih]

end Token

namespace Fragment

/-- The fragment opens no filter clause. -/
def Closed (f : Fragment) : Prop := .sentinel ∉ f.tokens

theorem closed_text (s : String) : (text s).Closed := by
  unfold Closed
  rw [text_tokens, Token.sentinel_mem_compact]
  simp

theorem closed_param (name : String) (v : Value) : (param name v).Closed := by
  simp [Closed]

theorem Closed.append {f g : Fragment} (hf : f.Closed) (hg : g.Closed) : (f ++ g).Closed := by
  unfold Closed
  rw [append_tokens, Token.sentinel_mem_append]
  exact not_or.mpr ⟨hf, hg⟩

theorem closed_compact {ts : List Token} {bindings : List Binding} (hts : .sentinel ∉ ts) :
    Closed ⟨Token.compact ts, bindings⟩ := by
  unfold Closed
  rw [Token.sentinel_mem_compact]
  exact hts

/-- The clause is cut off at the last opening. -/
theorem cutFilter?_append_sentinel {before clause : List Token} (hclause : .sentinel ∉ clause) :
    cutFilter? (before ++ .sentinel :: clause) = some (before, clause) := by
  have hnone : cutFilter? clause = none := by
    induction clause with
    | nil => rfl
    | cons t ts ih =>
      have ht : t ≠ .sentinel := fun h => hclause (h ▸ List.mem_cons_self)
      have hts := ih fun h => hclause (List.mem_cons_of_mem _ h)
      simp [cutFilter?, hts, ht]
  induction before with
  | nil => simp [cutFilter?, hnone]
  | cons t before ih => simp [cutFilter?, ih]

/-- Trimming leaves no other tokens behind, texts apart. -/
theorem mem_of_mem_trim {t : Token} (ht : ∀ s, t ≠ .text s) {f : Fragment}
    (h : t ∈ f.trim.tokens) : t ∈ f.tokens := by
  have hfirst : ∀ ts : List Token, t ∈ trimFirst ts → t ∈ ts := by
    intro ts
    unfold trimFirst
    split <;> simp [ht]
  have hlast : ∀ ts : List Token, t ∈ trimLast ts → t ∈ ts := by
    intro ts
    induction ts using trimLast.induct with
    | case1 => exact id
    | case2 s => simp [trimLast, ht]
    | case3 u ts hts ih =>
      rw [trimLast]
      · intro h
        rcases List.mem_cons.mp h with h | h
        · exact h ▸ List.mem_cons_self
        · exact List.mem_cons_of_mem _ (ih h)
      · exact hts
  exact hfirst _ (hlast _ (List.mem_filter.mp h).1)

theorem Closed.trim {f : Fragment} (hf : f.Closed) : f.trim.Closed := fun h =>
  hf (mem_of_mem_trim (by simp) h)

theorem closed_sealed (f : Fragment) : f.sealed.Closed := by
  apply closed_compact
  intro h
  -- sealing turns every opening into a text
  obtain ⟨t, -, ht⟩ := List.mem_map.mp h
  cases t <;> cases ht

theorem Closed.rename {f : Fragment} (hf : f.Closed) (pairs : List (String × String)) :
    (f.rename pairs).Closed := by
  intro h
  obtain ⟨t, hmem, ht⟩ := List.mem_map.mp h
  cases t with
  | sentinel => exact hf hmem
  | _ => cases ht

end Fragment

/-! ### Computations -/

namespace Claiming

/-- The fragments that result open no filter clause. -/
def Closed (c : Claiming Fragment) : Prop := ∀ names f, (c names).1 = .ok f → f.Closed

theorem closed_pure {f : Fragment} (hf : f.Closed) : Closed (pure f) := by
  intro names g hg
  cases hg
  exact hf

theorem closed_written (s : String) : Closed (written s) := closed_pure (Fragment.closed_text s)

theorem closed_fault (e : Fault) : Closed (fault e) := by
  intro names f hf
  cases hf

theorem closed_boundAs (base : String) (v : Value) : Closed (boundAs base v) := by
  intro names f hf
  cases hf
  exact Fragment.closed_param _ v

theorem Closed.bind {c : Claiming Fragment} {k : Fragment → Claiming Fragment} (hc : Closed c)
    (hk : ∀ f, f.Closed → Closed (k f)) : Closed (c >>= k) := Yields.bind hc hk

/-- A computation behind something that is needed first. -/
theorem yields_ofExcept_bind {α β : Type} {P : β → Prop} {r : Except Fault α}
    {k : α → Claiming β} (hk : ∀ a, r = .ok a → Yields P (k a)) : Yields P (ofExcept r >>= k) := by
  intro names b
  rw [bind_apply]
  cases r with
  | error e =>
    intro hb
    cases hb
  | ok a => exact hk a rfl names b

theorem closed_ofExcept_bind {α : Type} {r : Except Fault α} {k : α → Claiming Fragment}
    (hk : ∀ a, r = .ok a → Closed (k a)) : Closed (ofExcept r >>= k) := yields_ofExcept_bind hk

end Claiming

open Claiming

/-! ### Values with text around them -/

namespace WrappedValue

theorem sentinel_of_mem_bindMarkers {names : Names} {ts : List Token} {vs : List Value}
    (h : .sentinel ∈ (bindMarkers names ts vs).1.1) : .sentinel ∈ ts := by
  induction ts generalizing names vs with
  | nil => simp [bindMarkers] at h
  | cons t ts ih =>
    cases t with
    | sentinel => exact List.mem_cons_self
    | param stale =>
      cases vs with
      | nil => exact List.mem_cons_of_mem _ (ih (by simpa [bindMarkers] using h))
      | cons v vs => exact List.mem_cons_of_mem _ (ih (by simpa [bindMarkers] using h))
    | _ => exact List.mem_cons_of_mem _ (ih (by simpa [bindMarkers] using h))

theorem closed_splice (name : String) {w : WrappedValue} (hw : .sentinel ∉ w.template) :
    Claiming.Closed (w.splice name) := by
  intro names f
  unfold splice
  split
  · split
    · intro hf
      cases hf
      exact Fragment.closed_compact fun h => hw (sentinel_of_mem_bindMarkers h)
    · intro hf
      cases hf
  · intro hf
    cases hf
    apply Fragment.closed_compact
    intro h
    obtain ⟨t, hmem, ht⟩ := List.mem_map.mp h
    cases t with
    | sentinel => exact hw hmem
    | _ => cases ht

end WrappedValue

/-! ### Conditions -/

namespace Dialect

variable (d : Dialect)

theorem closed_listMarkers (i n : Nat) : .sentinel ∉ listMarkers i n := by
  induction n generalizing i with
  | zero => exact List.not_mem_nil
  | succ n ih =>
    have hcomma : .sentinel ∉ (if i = 0 then [] else [Token.text ","]) := by
      split <;> simp
    simp [listMarkers, hcomma, ih]

theorem closed_pattern (method : Method) (s : String) :
    .sentinel ∉ (d.pattern method s).template := by
  cases method <;> simp [pattern, forContains, forStartsWith, forEndsWith, WrappedValue.bound]

theorem closed_forList (vs : List Value) : .sentinel ∉ (d.forList vs).template := by
  simp [forList, closed_listMarkers]

theorem closed_negatedIf (negated : Bool) {f : Fragment} (hf : f.Closed) :
    (negatedIf negated f).Closed := by
  cases negated with
  | false => exact hf
  | true => exact ((Fragment.closed_text _).append hf).append (Fragment.closed_text _)

theorem closed_joined (op : BinaryOp) {l r : Fragment} (hl : l.Closed) (hr : r.Closed) :
    (joined op l r).Closed := by
  have hleft := ((Fragment.closed_text "(").append hl).append
    (Fragment.closed_text (" " ++ op.sql ++ " "))
  exact (hleft.append hr).append (Fragment.closed_text ")")

end Dialect

/-- No expression opens a filter clause. -/
theorem Claiming.Composed.closed {c : Claiming Fragment} (hc : Composed c) :
    Claiming.Closed c := by
  induction hc with
  | fault e => exact closed_fault e
  | written s => exact closed_written s
  | marker base v => exact closed_boundAs base v
  | pattern d method s name => exact WrappedValue.closed_splice name (d.closed_pattern method s)
  | list d vs name => exact WrappedValue.closed_splice name (d.closed_forList vs)
  | after s hc ih =>
    apply ih.bind
    intro f hf
    exact closed_pure ((Fragment.closed_text s).append hf)
  | negated negated hc ih =>
    apply ih.bind
    intro f hf
    exact closed_pure (Dialect.closed_negatedIf negated hf)
  | joined negated op hl hr ihl ihr =>
    apply ihl.bind
    intro l hl
    apply ihr.bind
    intro r hr
    exact closed_pure (Dialect.closed_negatedIf negated (Dialect.closed_joined op hl hr))

/-! ### Templates -/

namespace Template

/-- A template is text and placeholders. -/
theorem closed_scan (template : String) : .sentinel ∉ scan template := by
  have hsigned : ∀ c cs, (signed c cs).1 ≠ .sentinel := by
    intro c cs
    unfold signed
    split
    · simp [textOf]
    · split
      · simp [textOf]
      · split <;> simp [textOf]
  have hliteral : ∀ q cs, (literal q cs).1 ≠ .sentinel := by
    intro q cs
    unfold literal
    dsimp only
    split <;> simp [textOf]
  have hlexeme : ∀ c cs, (lexeme c cs).1 ≠ .sentinel := by
    intro c cs
    unfold lexeme
    split
    · exact hliteral c cs
    · split
      · exact hsigned c cs
      · simp [textOf]
  have hlexemes : ∀ cs, .sentinel ∉ lexemes cs := by
    intro cs
    induction cs using lexemes.induct with
    | case1 => simp [lexemes]
    | case2 c rest ih =>
      rw [lexemes]
      intro h
      rcases List.mem_cons.mp h with h | h
      · exact hlexeme c rest h.symm
      · exact ih h
  unfold scan
  rw [Token.sentinel_mem_compact]
  exact hlexemes _

end Template

/-- The argument brings no opening of a filter clause along. -/
def Arg.Closed : Arg → Prop
  | value _ => True
  | wrapped w => .sentinel ∉ w.template

/-- None of the arguments brings an opening of a filter clause along. -/
def Args.Closed : Args → Prop
  | positional values => ∀ arg ∈ values, arg.Closed
  | named bag => ∀ entry ∈ bag.entries, entry.2.Closed

namespace Building

theorem closed_of_resolve {template : String} {names : List String} {args : Args}
    (hargs : args.Closed) {resolved : List (String × Arg)}
    (h : resolve template names args = .ok resolved) : ∀ entry ∈ resolved, entry.2.Closed := by
  intro entry hentry
  have hmem := mem_values_of_resolve h entry hentry
  cases args with
  | positional values => exact hargs entry.2 hmem
  | named bag =>
    obtain ⟨other, hother, heq⟩ := List.mem_map.mp hmem
    rw [← heq]
    exact hargs other hother

theorem closed_place (name : String) (arg : Option Arg) (harg : ∀ a ∈ arg, a.Closed) :
    Claiming.Closed (place name arg) := by
  cases arg with
  | none => exact closed_pure List.not_mem_nil
  | some arg =>
    cases arg with
    | value v => exact closed_boundAs name v
    | wrapped w => exact WrappedValue.closed_splice name (harg _ rfl)

/-- A template whose arguments bring no opening of a filter clause along opens none. -/
theorem closed_expand (resolved : List (String × Arg))
    (hresolved : ∀ entry ∈ resolved, entry.2.Closed) (again : List (String × List Token))
    (hagain : ∀ entry ∈ again, .sentinel ∉ entry.2) (ts : List Token) (hts : .sentinel ∉ ts) :
    Claiming.Closed (expand resolved again ts) := by
  induction again, ts using expand.induct with
  | case1 again => exact closed_pure List.not_mem_nil
  | case2 again name ts tokens hname ih =>
    simp only [expand, hname]
    have hwritten : (Fragment.empty.pushTokens tokens).Closed := by
      exact Fragment.closed_compact (hagain (name, tokens) (mem_of_lookup hname))
    apply (ih hagain fun h => hts (List.mem_cons_of_mem _ h)).bind
    intro rest hrest
    exact closed_pure (hwritten.append hrest)
  | case3 again name ts hname ih =>
    simp only [expand, hname]
    have harg : ∀ a ∈ resolved.lookup name, a.Closed := by
      intro a ha
      exact hresolved (name, a) (mem_of_lookup ha)
    apply (closed_place name _ harg).bind
    intro value hvalue
    -- where the placeholder is repeated, the tokens written here are written again
    have hagain' : ∀ entry ∈ (name, value.tokens) :: again, .sentinel ∉ entry.2 := by
      intro entry hentry
      rcases List.mem_cons.mp hentry with rfl | hentry
      · exact hvalue
      · exact hagain entry hentry
    apply (ih value hagain' fun h => hts (List.mem_cons_of_mem _ h)).bind
    intro rest hrest
    exact closed_pure (hvalue.append hrest)
  | case4 again t ts ht ih =>
    have hfirst : (Fragment.empty.pushTokens [t]).Closed := by
      apply Fragment.closed_compact
      intro h
      exact hts (List.mem_singleton.mp h ▸ List.mem_cons_self)
    rw [expand_cons ht]
    apply (ih hagain fun h => hts (List.mem_cons_of_mem _ h)).bind
    intro rest hrest
    exact closed_pure (hfirst.append hrest)

end Building

end BoundSql
