import BoundSql.Text.Split
import Mathlib.Data.List.Infix

/-!
# Counting occurrences

A pattern whose first character does not come again in it cannot overlap with itself, so that its
occurrences read from the left are the places at which it starts (`occurrences_eq_hits`).  These
add up where a text is cut in front of a character that the pattern does not go on with.
-/

namespace BoundSql.Text

/-- At how many places the pattern starts. -/
def hits (pattern : List Char) : List Char → Nat
  | [] => 0
  | c :: cs => (if pattern <+: c :: cs then 1 else 0) + hits pattern cs

theorem isSome_dropLead? (pattern cs : List Char) :
    (dropLead? pattern cs).isSome = true ↔ pattern <+: cs := by
  induction pattern generalizing cs with
  | nil => simp [dropLead?]
  | cons p ps ih =>
    cases cs with
    | nil => simp [dropLead?]
    | cons c cs =>
      rw [dropLead?, List.cons_prefix_cons]
      split
      · next hpc => simp [hpc, ih]
      · next hpc => simp [hpc]

theorem isSome_splitFirst? (pattern cs : List Char) :
    (splitFirst? pattern cs).isSome = true ↔ pattern <:+: cs := by
  induction cs with
  | nil =>
    rw [List.infix_nil, splitFirst?]
    split
    · next h => exact iff_of_true rfl h
    · next h => exact iff_of_false Bool.false_ne_true h
  | cons c cs ih =>
    rw [List.infix_cons_iff, ← isSome_dropLead?, ← ih, splitFirst?]
    cases dropLead? pattern (c :: cs) with
    | none => simp
    | some rest => simp

theorem contains_iff (s pattern : String) :
    contains s pattern = true ↔ pattern.toList <:+: s.toList := isSome_splitFirst? _ _

theorem startsWith_iff (s pattern : String) :
    startsWith s pattern = true ↔ pattern.toList <+: s.toList := isSome_dropLead? _ _

theorem hits_nil (pattern : List Char) : hits pattern [] = 0 := rfl

/-! ### Cutting the text -/

section Cut

variable {p x : Char} {ps a b : List Char}

theorem hits_cons_of_ne (h : x ≠ p) : hits (p :: ps) (x :: b) = hits (p :: ps) b := by
  have hno : ¬ p :: ps <+: x :: b := by
    rw [List.cons_prefix_cons]
    rintro ⟨rfl, -⟩
    exact h rfl
  rw [hits, if_neg hno, Nat.zero_add]

theorem hits_append_of_not_mem (h : p ∉ a) : hits (p :: ps) (a ++ b) = hits (p :: ps) b := by
  induction a with
  | nil => rfl
  | cons c a ih =>
    rw [List.mem_cons, not_or] at h
    rw [List.cons_append, hits_cons_of_ne (Ne.symm h.1), ih h.2]

/-- What a text in two parts starts with ends in its first part or in its second one. -/
theorem of_prefix_append {pattern a b : List Char} (h : pattern <+: a ++ b) :
    pattern <+: a ∨ ∃ rest, rest <+: b ∧ pattern = a ++ rest := by
  rcases List.prefix_or_prefix_of_prefix h (List.prefix_append a b) with hfirst | ⟨rest, rfl⟩
  · exact .inl hfirst
  · exact .inr ⟨rest, (List.prefix_append_right_inj a).mp h, rfl⟩

/-- An occurrence does not go across a character that may only be its first one. -/
theorem hits_append_cons (h : x ∉ ps) :
    hits (p :: ps) (a ++ x :: b) = hits (p :: ps) a + hits (p :: ps) (x :: b) := by
  induction a with
  | nil => rw [hits_nil, Nat.zero_add, List.nil_append]
  | cons c a ih =>
    have hsame : p :: ps <+: c :: a ++ x :: b ↔ p :: ps <+: c :: a := by
      refine ⟨fun hlong => ?_, fun hshort => hshort.trans (List.prefix_append _ _)⟩
      rcases of_prefix_append hlong with hshort | ⟨_ | ⟨y, rest⟩, hrest, hsplit⟩
      · exact hshort
      · rw [hsplit, List.append_nil]
      · obtain ⟨rfl, -⟩ := List.cons_prefix_cons.mp hrest
        obtain ⟨-, rfl⟩ := List.cons.inj hsplit
        exact absurd (List.mem_append_right a List.mem_cons_self) h
    rw [List.cons_append, hits, hits, ih, Nat.add_assoc]
    simp only [List.cons_append] at hsame
    simp only [hsame]

/-- No occurrence ends in a text without its last character. -/
theorem hits_append_of_last {init : List Char} {last : Char} (h : last ∉ b) :
    hits (init ++ [last]) (a ++ b) = hits (init ++ [last]) a := by
  have hnone : ∀ cs : List Char, last ∉ cs → hits (init ++ [last]) cs = 0 := by
    intro cs hcs
    induction cs with
    | nil => rfl
    | cons c cs ih =>
      have hno : ¬ init ++ [last] <+: c :: cs := fun hstart => hcs (hstart.subset (by simp))
      rw [hits, if_neg hno, Nat.zero_add]
      exact ih fun hmem => hcs (List.mem_cons_of_mem _ hmem)
  induction a with
  | nil => exact hnone b h
  | cons c a ih =>
    have hsame : init ++ [last] <+: c :: a ++ b ↔ init ++ [last] <+: c :: a := by
      refine ⟨fun hlong => ?_, fun hshort => hshort.trans (List.prefix_append _ _)⟩
      rcases of_prefix_append hlong with hshort | ⟨rest, hrest, hsplit⟩
      · exact hshort
      · rcases List.eq_nil_or_concat' rest with rfl | ⟨front, y, rfl⟩
        · rw [hsplit, List.append_nil]
        · rw [← List.append_assoc] at hsplit
          obtain ⟨-, hy⟩ := List.append_inj' hsplit rfl
          rw [(List.cons.inj hy).1] at h
          exact absurd (hrest.subset (by simp)) h
    rw [List.cons_append, hits, hits, ih]
    simp only [List.cons_append] at hsame
    simp only [hsame]

end Cut

/-! ### Occurrences -/

theorem length_consPiece (c : Char) (pieces : List (List Char)) (h : pieces ≠ []) :
    (consPiece c pieces).length = pieces.length := by
  cases pieces with
  | nil => exact absurd rfl h
  | cons piece pieces => rfl

theorem length_piecesFrom {p : Char} {ps : List Char} (hp : p ∉ ps) (skip : Nat)
    (cs : List Char) :
    (piecesFrom (p :: ps) skip cs).length = hits (p :: ps) (cs.drop skip) + 1 := by
  induction cs generalizing skip with
  | nil => cases skip <;> rfl
  | cons c cs ih =>
    cases skip with
    | succ skip => exact ih skip
    | zero =>
      rw [piecesFrom, List.drop_zero, hits]
      by_cases hhit : p :: ps <+: c :: cs
      · rw [if_pos ((isSome_dropLead? _ _).mpr hhit), if_pos hhit, List.length_cons, ih]
        -- what belongs to the occurrence has no other place where the pattern starts
        obtain ⟨rest, hrest⟩ := (List.cons_prefix_cons.mp hhit).2
        have hskip : (p :: ps).length - 1 = ps.length := rfl
        rw [← hrest, hskip, List.drop_left, hits_append_of_not_mem hp]
        omega
      · have hnone : ¬ (dropLead? (p :: ps) (c :: cs)).isSome = true := by
          rw [isSome_dropLead?]
          exact hhit
        have hpieces : piecesFrom (p :: ps) 0 cs ≠ [] := by
          intro hnil
          have hlength := ih 0
          rw [hnil] at hlength
          cases hlength
        rw [if_neg hnone, if_neg hhit, length_consPiece _ _ hpieces, ih, List.drop_zero,
          Nat.zero_add]

/-- How often a pattern occurs that does not overlap with itself. -/
theorem occurrences_eq_hits {s pattern : String} {p : Char} {ps : List Char}
    (hpattern : pattern.toList = p :: ps) (hp : p ∉ ps) :
    occurrences s pattern = hits pattern.toList s.toList := by
  unfold occurrences splitAt
  rw [hpattern, length_piecesFrom hp, List.drop_zero, Nat.add_sub_cancel]

theorem hits_eq_zero {s pattern : String} (h : contains s pattern = false) :
    hits pattern.toList s.toList = 0 := by
  have hno : ¬ pattern.toList <:+: s.toList := by
    rw [← contains_iff, h]
    exact Bool.false_ne_true
  generalize s.toList = cs at hno
  induction cs with
  | nil => rfl
  | cons c cs ih =>
    rw [List.infix_cons_iff, not_or] at hno
    rw [hits, if_neg hno.1, ih hno.2]

end BoundSql.Text
