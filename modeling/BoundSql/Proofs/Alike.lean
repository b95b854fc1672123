import BoundSql.Proofs.Binding
import Mathlib.Data.List.Forall2

/-!
# Statements that differ in the values they bind

Two values are alike when they are of one kind: NULL both of them or none, with type names that
agree, and with as many items where they are lists.  Fragments are alike when only the values of
their bindings differ, and these have the same markers; such fragments have the same text.
Computations are alike when on the same names both succeed with results that are related, or both
fail, and leave the same names.
-/

namespace BoundSql

/-! ### Values -/

/-- The markers of two values are the same: where markers name types, these agree. -/
def Dialect.SameMarker (d : Dialect) (v w : Value) : Prop :=
  d.typedMarkers = true → v.type.name = w.type.name

theorem Dialect.SameMarker.marker_eq {d : Dialect} {v w : Value} (h : d.SameMarker v w)
    (name : String) : d.marker name v = d.marker name w := by
  unfold marker
  by_cases htyped : d.typedMarkers = true
  · rw [h htyped]
  · rw [if_neg htyped, if_neg htyped]

/-- Values of one kind: NULL, a scalar, or a list of as many items. -/
inductive Value.Alike (d : Dialect) : Value → Value → Prop where
  | null {s t : SqlType} (h : s.name = t.name) : Alike d (null s) (null t)
  | scalar {a b : Scalar} (h : a.type.name = b.type.name) : Alike d (scalar a) (scalar b)
  | list {vs ws : List Value} {s t : SqlType} (h : List.Forall₂ d.SameMarker vs ws) :
    Alike d (list vs s) (list ws t)

namespace Value.Alike

variable {d : Dialect} {v w : Value}

theorem sameMarker (h : Alike d v w) : d.SameMarker v w := by
  intro _
  cases h with
  | null h => exact h
  | scalar h => exact h
  | list _ => rfl

theorem isNull_eq (h : Alike d v w) : v.isNull = w.isNull := by
  cases h <;> rfl

end Value.Alike

/-! ### Fragments -/

/-- Bindings of one name to values of the same marker. -/
structure Binding.Alike (d : Dialect) (b c : Binding) : Prop where
  name : b.name = c.name
  value : d.SameMarker b.value c.value

namespace Fragment

/-- Fragments that differ in nothing but the values that they bind. -/
structure Alike (d : Dialect) (f g : Fragment) : Prop where
  tokens : f.tokens = g.tokens
  bindings : List.Forall₂ (Binding.Alike d) f.bindings g.bindings

variable {d : Dialect} {f f' g g' : Fragment}

theorem alike_of_unbound {ts : List Token} : Alike d ⟨ts, []⟩ ⟨ts, []⟩ := ⟨rfl, .nil⟩

theorem alike_text (s : String) : Alike d (text s) (text s) := alike_of_unbound

theorem alike_param (name : String) {v w : Value} (h : d.SameMarker v w) :
    Alike d (param name v) (param name w) :=
  ⟨rfl, .cons ⟨rfl, h⟩ .nil⟩

theorem Alike.append (hf : Alike d f f') (hg : Alike d g g') : Alike d (f ++ g) (f' ++ g') := by
  refine ⟨?_, List.rel_append hf.bindings hg.bindings⟩
  rw [append_tokens, append_tokens, hf.tokens, hg.tokens]

theorem Alike.pushTokens (hf : Alike d f f') (ts : List Token) :
    Alike d (f.pushTokens ts) (f'.pushTokens ts) := by
  refine ⟨?_, hf.bindings⟩
  rw [pushTokens_tokens, pushTokens_tokens, hf.tokens]

/-- Whatever is done to the tokens alone. -/
theorem Alike.withTokens (hf : Alike d f f') (ts : List Token) :
    Alike d { f with tokens := ts } { f' with tokens := ts } :=
  ⟨rfl, hf.bindings⟩

theorem Alike.names_eq (h : Alike d f g) : f.names = g.names := by
  have hnames : List.Forall₂ (· = ·) f.names g.names := by
    unfold names
    rw [List.forall₂_map_left_iff, List.forall₂_map_right_iff]
    exact h.bindings.imp fun _ _ hb => hb.name
  rwa [List.forall₂_eq_eq_eq] at hnames

/-- The markers that bindings which are alike give a name. -/
theorem sameMarker_valueOf {bs cs : List Binding} (h : List.Forall₂ (Binding.Alike d) bs cs)
    (name : String) : d.SameMarker (valueOf bs name) (valueOf cs name) := by
  unfold valueOf
  have hreverse := List.forall₂_reverse_iff.mpr h
  generalize bs.reverse = bs' at hreverse ⊢
  generalize cs.reverse = cs' at hreverse ⊢
  induction hreverse with
  | nil => exact fun _ => rfl
  | cons hb _ ih =>
    rw [List.find?_cons, List.find?_cons, hb.name]
    split
    · exact hb.value
    · exact ih

/-- The text of a statement does not depend on the values it binds. -/
theorem Alike.render_eq (h : Alike d f g) : d.render f = d.render g := by
  have htoken : renderToken d.marker f.bindings = renderToken d.marker g.bindings := by
    funext t
    cases t with
    | param name => exact (sameMarker_valueOf h.bindings name).marker_eq name
    | _ => rfl
  unfold Dialect.render render
  rw [h.tokens, htoken]

end Fragment

/-! ### Computations -/

namespace Claiming

/-- On the same names both computations leave the same names, and both fail or their results are
related. -/
abbrev Alike {α β : Type} (R : α → β → Prop) (c : Claiming α) (c' : Claiming β) : Prop :=
  Parallel (· = ·) R c c'

variable {d : Dialect}

theorem alike_ofExcept {α β : Type} {R : α → β → Prop} {r : Except Fault α} {r' : Except Fault β}
    (h : SameOutcome R r r') : Alike R (ofExcept r) (ofExcept r') :=
  fun _ _ hnames => ⟨hnames, h⟩

theorem alike_obstructed {α β : Type} (R : α → β → Prop) (kind kind' : NodeKind)
    (obstacle obstacle' : Obstacle) :
    Alike R (obstructed kind obstacle) (obstructed kind' obstacle') :=
  fun _ _ hnames => ⟨hnames, .error _ _⟩

theorem alike_written (s : String) : Alike (Fragment.Alike d) (written s) (written s) :=
  parallel_pure (Fragment.alike_text s)

theorem alike_boundAs (base : String) {v w : Value} (h : d.SameMarker v w) :
    Alike (Fragment.Alike d) (boundAs base v) (boundAs base w) := by
  rintro names - rfl
  exact ⟨rfl, .ok (Fragment.alike_param _ h)⟩

end Claiming

/-! ### Values with text around them -/

namespace WrappedValue

variable {d : Dialect}

theorem bindMarkers_alike (names : Names) (ts : List Token) {vs ws : List Value}
    (h : List.Forall₂ d.SameMarker vs ws) :
    (bindMarkers names ts vs).2 = (bindMarkers names ts ws).2 ∧
      (bindMarkers names ts vs).1.1 = (bindMarkers names ts ws).1.1 ∧
      List.Forall₂ (Binding.Alike d) (bindMarkers names ts vs).1.2
        (bindMarkers names ts ws).1.2 := by
  induction ts generalizing names vs ws with
  | nil => exact ⟨rfl, rfl, .nil⟩
  | cons t ts ih =>
    cases t with
    | param stale =>
      cases h with
      | nil =>
        obtain ⟨hnames, htokens, hbindings⟩ := ih names .nil
        exact ⟨hnames, congrArg (_ :: ·) htokens, hbindings⟩
      | cons hv hvs =>
        obtain ⟨hnames, htokens, hbindings⟩ := ih (names.claim stale).2 hvs
        exact ⟨hnames, congrArg (_ :: ·) htokens, .cons ⟨rfl, hv⟩ hbindings⟩
    | _ =>
      obtain ⟨hnames, htokens, hbindings⟩ := ih names h
      exact ⟨hnames, congrArg (_ :: ·) htokens, hbindings⟩

/-- The text around a value is spliced in the same way for values that are alike. -/
theorem alike_splice (name : String) (template : List Token) {v w : Value} (h : v.Alike d w) :
    Claiming.Alike (Fragment.Alike d) (splice name ⟨template, v⟩) (splice name ⟨template, w⟩) := by
  rintro names - rfl
  cases h with
  | null h => exact ⟨rfl, .ok ⟨rfl, .cons ⟨rfl, (Value.Alike.null h).sameMarker⟩ .nil⟩⟩
  | scalar h => exact ⟨rfl, .ok ⟨rfl, .cons ⟨rfl, (Value.Alike.scalar h).sameMarker⟩ .nil⟩⟩
  | @list vs ws s t h =>
    obtain ⟨hnames, htokens, hbindings⟩ := bindMarkers_alike names template h
    have hlength : vs.length = ws.length := h.length_eq
    rw [splice_list, splice_list, hlength]
    by_cases hmarkers : (Token.paramNames template).length = ws.length
    · rw [if_pos hmarkers, if_pos hmarkers]
      exact ⟨hnames, .ok ⟨congrArg Token.compact htokens, hbindings⟩⟩
    · rw [if_neg hmarkers, if_neg hmarkers]
      exact ⟨rfl, .error _ _⟩

end WrappedValue

end BoundSql
