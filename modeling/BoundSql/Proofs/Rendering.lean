import BoundSql.Fragment.Basic
import Mathlib.Data.List.DropRight

/-!
# The text of a fragment

Rendering goes token by token, so that it does not matter whether neighbouring texts were merged.
Trimming a fragment cuts blanks off its first and its last token only.  Of a text that starts with
something else than a blank this is all that is lost, and what is lost are blanks at its end
(`Fragment.render_trim`).
-/

namespace BoundSql

namespace Text

/-- What is cut off the end of a text are blanks. -/
theorem trimEnd_append (s : String) :
    ∃ blanks, allBlank blanks = true ∧ trimEnd s ++ blanks = s := by
  refine ⟨String.ofList (s.toList.rtakeWhile isBlank), ?_, ?_⟩
  · unfold allBlank
    rw [String.toList_ofList, List.all_eq_true]
    intro c hc
    exact List.mem_rtakeWhile_imp hc
  · unfold trimEnd
    rw [← String.ofList_append]
    have hwhole : dropBlankEnd s.toList ++ s.toList.rtakeWhile isBlank = s.toList :=
      List.rdropWhile_append_rtakeWhile
    rw [hwhole, String.ofList_toList]

/-- Blanks at the start of a text are cut off as far as they go. -/
theorem trimStart_blank_append {c : Char} (hc : isBlank c = false) (cs : List Char) (s : String) :
    trimStart (" " ++ String.ofList (c :: cs) ++ s) = String.ofList (c :: cs) ++ s := by
  unfold trimStart
  have hchars : (" " ++ String.ofList (c :: cs) ++ s).toList = ' ' :: c :: (cs ++ s.toList) := by
    simp
  have hspace : isBlank ' ' = true := rfl
  rw [hchars, List.dropWhile_cons_of_pos hspace, List.dropWhile_cons_of_neg (by simp [hc])]
  apply String.toList_injective
  simp

/-- Nothing was cut off the end of a text that ends with something else than a blank. -/
theorem eq_empty_of_allBlank {s t blanks : String} {c : Char} (hblanks : allBlank blanks = true)
    (hc : isBlank c = false) (h : s ++ blanks = t ++ String.ofList [c]) : blanks = "" := by
  have hchars := congrArg String.toList h
  simp only [String.toList_append, String.toList_ofList] at hchars
  rcases List.eq_nil_or_concat' blanks.toList with hnil | ⟨front, last, hlast⟩
  · exact String.toList_eq_nil_iff.mp hnil
  · rw [hlast, ← List.append_assoc] at hchars
    obtain ⟨-, hsame⟩ := List.append_inj' hchars rfl
    have hblank : isBlank last = true := by
      unfold allBlank at hblanks
      rw [hlast] at hblanks
      exact List.all_eq_true.mp hblanks last (by simp)
    cases hsame
    rw [hc] at hblank
    cases hblank

end Text

namespace Fragment

variable (marker : String → Value → String) (bindings : List Binding)

theorem render_append (ts us : List Token) :
    render marker ⟨ts ++ us, bindings⟩ =
      render marker ⟨ts, bindings⟩ ++ render marker ⟨us, bindings⟩ := by
  unfold render
  rw [List.map_append, String.join_append]

theorem render_cons (t : Token) (ts : List Token) :
    render marker ⟨t :: ts, bindings⟩ =
      renderToken marker bindings t ++ render marker ⟨ts, bindings⟩ := by
  unfold render
  rw [List.map_cons, String.join_cons]

/-- Fragments one after the other, rendered with the same bindings. -/
theorem render_flatMap (fs : List Fragment) :
    render marker ⟨fs.flatMap (·.tokens), bindings⟩ =
      String.join (fs.map fun f => render marker ⟨f.tokens, bindings⟩) := by
  induction fs with
  | nil => rfl
  | cons f fs ih =>
    rw [List.flatMap_cons, render_append, ih, List.map_cons, String.join_cons]

theorem render_consText (s : String) (ts : List Token) :
    render marker ⟨Token.consText s ts, bindings⟩ = s ++ render marker ⟨ts, bindings⟩ := by
  unfold Token.consText
  split
  · next hs => rw [hs, String.empty_append]
  · split
    · rw [render_cons, render_cons, ← String.append_assoc]
      rfl
    · rw [render_cons]
      rfl

theorem render_compact (ts : List Token) :
    render marker ⟨Token.compact ts, bindings⟩ = render marker ⟨ts, bindings⟩ := by
  induction ts with
  | nil => rfl
  | cons t ts ih =>
    cases t with
    | text s =>
      rw [Token.compact, render_consText, render_cons, ih]
      rfl
    | _ => simp only [Token.compact, render_cons, ih]

theorem render_join (ts us : List Token) :
    render marker ⟨Token.join ts us, bindings⟩ =
      render marker ⟨ts, bindings⟩ ++ render marker ⟨us, bindings⟩ := by
  have hempty : render marker ⟨[], bindings⟩ = "" := rfl
  induction ts with
  | nil => exact String.empty_append.symm
  | cons t ts ih =>
    cases ts with
    | nil => cases t <;> simp [Token.join, render_consText, render_cons, renderToken, hempty]
    | cons u ts =>
      have hjoin : Token.join (t :: u :: ts) us = t :: Token.join (u :: ts) us := by
        cases t <;> rfl
      rw [hjoin, render_cons, ih, render_cons marker bindings t, String.append_assoc]

/-- Putting fragments together puts their texts together. -/
theorem render_extend (f g : Fragment) :
    render marker ⟨(f ++ g).tokens, bindings⟩ =
      render marker ⟨f.tokens, bindings⟩ ++ render marker ⟨g.tokens, bindings⟩ := by
  show render marker ⟨Token.join f.tokens (Token.compact g.tokens), bindings⟩ = _
  rw [render_join, render_compact]

theorem render_text_tokens (s : String) :
    render marker ⟨(text s).tokens, bindings⟩ = s := by
  show render marker ⟨Token.compact [.text s], bindings⟩ = s
  rw [render_compact, render_cons]
  exact String.append_empty

theorem render_param_tokens (name : String) (v : Value) :
    render marker ⟨(param name v).tokens, bindings⟩ = marker name (valueOf bindings name) := by
  show render marker ⟨[.param name], bindings⟩ = _
  rw [render_cons]
  exact String.append_empty

/-- Empty texts do not show. -/
theorem render_filter_text (ts : List Token) :
    render marker ⟨ts.filter (· ≠ .text ""), bindings⟩ = render marker ⟨ts, bindings⟩ := by
  induction ts with
  | nil => rfl
  | cons t ts ih =>
    rw [render_cons]
    by_cases ht : t = .text ""
    · rw [List.filter_cons_of_neg (by simp [ht]), ih, ht]
      exact (String.empty_append).symm
    · rw [List.filter_cons_of_pos (by simp [ht]), render_cons, ih]

theorem render_trimLast (ts : List Token) :
    ∃ blanks, Text.allBlank blanks = true ∧
      render marker ⟨trimLast ts, bindings⟩ ++ blanks = render marker ⟨ts, bindings⟩ := by
  induction ts using trimLast.induct with
  | case1 => exact ⟨"", rfl, rfl⟩
  | case2 s =>
    obtain ⟨blanks, hblank, hwhole⟩ := Text.trimEnd_append s
    refine ⟨blanks, hblank, ?_⟩
    have htext : ∀ u, render marker ⟨[.text u], bindings⟩ = u := by
      intro u
      rw [render_cons]
      exact String.append_empty
    rw [trimLast, htext, htext, hwhole]
  | case3 t ts hts ih =>
    obtain ⟨blanks, hblank, hwhole⟩ := ih
    refine ⟨blanks, hblank, ?_⟩
    rw [trimLast]
    · rw [render_cons, render_cons, String.append_assoc, hwhole]
    · exact hts

/-- Of the blank that tokens start with nothing is left. -/
theorem render_trimFirst {c : Char} (hc : Text.isBlank c = false) (cs : List Char)
    (ts : List Token) :
    render marker ⟨trimFirst (Token.consText (" " ++ String.ofList (c :: cs)) ts), bindings⟩ =
      String.ofList (c :: cs) ++ render marker ⟨ts, bindings⟩ := by
  have hne : " " ++ String.ofList (c :: cs) ≠ "" := by
    intro h
    have hlength := congrArg String.length h
    simp at hlength
  have halone := Text.trimStart_blank_append hc cs ""
  rw [String.append_empty, String.append_empty] at halone
  unfold Token.consText
  rw [if_neg hne]
  split
  · next u rest =>
    rw [trimFirst, Text.trimStart_blank_append hc, render_cons, render_cons,
      ← String.append_assoc]
    rfl
  · rw [trimFirst, halone, render_cons]
    rfl

/-- A fragment that starts with one blank loses it, and blanks at its end. -/
theorem render_trim {f : Fragment} {c : Char} {cs : List Char} {ts : List Token}
    (hc : Text.isBlank c = false)
    (hf : f.tokens = Token.compact (.text (" " ++ String.ofList (c :: cs)) :: ts)) :
    ∃ blanks, Text.allBlank blanks = true ∧
      render marker f.trim ++ blanks =
        String.ofList (c :: cs) ++ render marker ⟨ts, f.bindings⟩ := by
  obtain ⟨blanks, hblank, hwhole⟩ := render_trimLast marker f.bindings (trimFirst f.tokens)
  refine ⟨blanks, hblank, ?_⟩
  unfold trim
  rw [render_filter_text, hwhole, hf, Token.compact, render_trimFirst marker f.bindings hc,
    render_compact]

end Fragment

end BoundSql
