import BoundSql.Proofs.Occurrence
import Mathlib.Data.List.Infix

/-!
# Splitting joined texts

Splitting at a pattern and joining with it are inverse to each other as far as they can be.  The
pieces that a text is split into join to the text again (`intercalate_splitAt`), and are not split
any further (`splitAt_of_mem`).  A joined text is split into the pieces of the texts that were
joined (`splitAt_intercalate`), which are these texts themselves only where the pattern does not
occur in them.

The pattern is one whose first character does not come again in it, so that no occurrence overlaps
with another one.
-/

namespace BoundSql.Text

variable {p : Char} {ps : List Char}

/-! ### One piece after the other -/

/-- A text is empty, starts with the pattern, or starts with a character at which the pattern does
not start. -/
@[elab_as_elim]
theorem split_induction (p : Char) (ps : List Char) {motive : List Char → Prop} (nil : motive [])
    (hit : ∀ rest, motive rest → motive (p :: ps ++ rest))
    (miss : ∀ c cs, ¬ p :: ps <+: c :: cs → motive cs → motive (c :: cs)) (cs : List Char) :
    motive cs := by
  induction hlength : cs.length using Nat.strong_induction_on generalizing cs with
  | _ n ih =>
    subst hlength
    cases cs with
    | nil => exact nil
    | cons c cs =>
      by_cases hhit : p :: ps <+: c :: cs
      · obtain ⟨rest, hrest⟩ := hhit
        rw [← hrest]
        refine hit rest (ih rest.length ?_ rest rfl)
        have hsum := congrArg List.length hrest
        simp only [List.length_append, List.length_cons] at hsum ⊢
        omega
      · exact miss c cs hhit (ih cs.length (Nat.lt_succ_self _) cs rfl)

theorem piecesFrom_eq_splitAt (pattern : List Char) (skip : Nat) (cs : List Char) :
    piecesFrom pattern skip cs = splitAt pattern (cs.drop skip) := by
  induction cs generalizing skip with
  | nil => cases skip <;> rfl
  | cons c cs ih =>
    cases skip with
    | zero => rfl
    | succ skip => exact ih skip

theorem splitAt_hit (rest : List Char) :
    splitAt (p :: ps) (p :: ps ++ rest) = [] :: splitAt (p :: ps) rest := by
  have hhit : (dropLead? (p :: ps) (p :: ps ++ rest)).isSome = true :=
    (isSome_dropLead? _ _).mpr (List.prefix_append _ _)
  have hskip : (p :: ps).length - 1 = ps.length := rfl
  show (if (dropLead? (p :: ps) (p :: ps ++ rest)).isSome then _ else _) = _
  rw [if_pos hhit, piecesFrom_eq_splitAt, hskip, List.append_eq, List.drop_left]

theorem splitAt_miss {c : Char} {cs : List Char} (h : ¬ p :: ps <+: c :: cs) :
    splitAt (p :: ps) (c :: cs) = consPiece c (splitAt (p :: ps) cs) := by
  show (if (dropLead? (p :: ps) (c :: cs)).isSome then _ else _) = _
  rw [if_neg fun hsome => h ((isSome_dropLead? _ _).mp hsome)]
  rfl

theorem splitAt_ne_nil (cs : List Char) : splitAt (p :: ps) cs ≠ [] := by
  induction cs using split_induction p ps with
  | nil => exact List.cons_ne_nil _ _
  | hit rest ih =>
    rw [splitAt_hit]
    exact List.cons_ne_nil _ _
  | miss c cs hmiss ih =>
    rw [splitAt_miss hmiss]
    unfold consPiece
    split <;> simp

theorem exists_consPiece (p : Char) (ps : List Char) (c : Char) (cs : List Char) :
    ∃ piece pieces, splitAt (p :: ps) cs = piece :: pieces ∧
      consPiece c (splitAt (p :: ps) cs) = (c :: piece) :: pieces := by
  obtain ⟨piece, pieces, hpieces⟩ := List.exists_cons_of_ne_nil (splitAt_ne_nil (p := p) cs)
  refine ⟨piece, pieces, hpieces, ?_⟩
  rw [hpieces]
  rfl

/-! ### Joining -/

theorem intercalate_cons_cons_left (sep : List Char) (c : Char) (piece : List Char)
    (pieces : List (List Char)) :
    sep.intercalate ((c :: piece) :: pieces) = c :: sep.intercalate (piece :: pieces) := by
  cases pieces with
  | nil => simp
  | cons next pieces => simp [List.intercalate_cons_cons]

/-- The pieces of a text join to the text. -/
theorem intercalate_splitAt (p : Char) (ps cs : List Char) :
    (p :: ps).intercalate (splitAt (p :: ps) cs) = cs := by
  induction cs using split_induction p ps with
  | nil => rfl
  | hit rest ih =>
    obtain ⟨piece, pieces, hpieces⟩ := List.exists_cons_of_ne_nil (splitAt_ne_nil (p := p) rest)
    rw [splitAt_hit, hpieces, List.intercalate_cons_cons, ← hpieces, ih]
    rfl
  | miss c cs hmiss ih =>
    obtain ⟨piece, pieces, hpieces, hcons⟩ := exists_consPiece p ps c cs
    rw [splitAt_miss hmiss, hcons, intercalate_cons_cons_left, ← hpieces, ih]

/-- A piece is not split any further. -/
theorem splitAt_of_mem {piece cs : List Char} (h : piece ∈ splitAt (p :: ps) cs) :
    splitAt (p :: ps) piece = [piece] := by
  induction cs using split_induction p ps generalizing piece with
  | nil =>
    obtain rfl := List.mem_singleton.mp h
    rfl
  | hit rest ih =>
    rw [splitAt_hit] at h
    rcases List.mem_cons.mp h with rfl | h
    · rfl
    · exact ih h
  | miss c cs hmiss ih =>
    obtain ⟨first, pieces, hpieces, hcons⟩ := exists_consPiece p ps c cs
    rw [splitAt_miss hmiss, hcons] at h
    rw [hpieces] at ih
    rcases List.mem_cons.mp h with rfl | h
    · -- the first piece is a prefix of the text, where the pattern does not start
      have hfirst : first <+: cs := by
        rw [← intercalate_splitAt p ps cs, hpieces]
        cases pieces with
        | nil => simp
        | cons next pieces => simp [List.intercalate_cons_cons]
      have hmiss' : ¬ p :: ps <+: c :: first := fun hstart =>
        hmiss (hstart.trans ((List.prefix_cons_inj c).mpr hfirst))
      rw [splitAt_miss hmiss', ih List.mem_cons_self]
      rfl
    · exact ih (List.mem_cons_of_mem _ h)

theorem splitAt_of_not_infix {cs : List Char} (h : ¬ p :: ps <:+: cs) :
    splitAt (p :: ps) cs = [cs] := by
  induction cs with
  | nil => rfl
  | cons c cs ih =>
    have hmiss : ¬ p :: ps <+: c :: cs := fun hstart => h hstart.isInfix
    rw [splitAt_miss hmiss, ih fun hmem => h (hmem.trans (List.suffix_cons c cs).isInfix)]
    rfl

/-- In front of an occurrence of the pattern, a text is split as if nothing followed. -/
theorem splitAt_append (hp : p ∉ ps) (cs rest : List Char) :
    splitAt (p :: ps) (cs ++ (p :: ps ++ rest)) =
      splitAt (p :: ps) cs ++ splitAt (p :: ps) rest := by
  induction cs using split_induction p ps with
  | nil => exact splitAt_hit rest
  | hit front ih => rw [List.append_assoc, splitAt_hit, ih, splitAt_hit, List.cons_append]
  | miss c cs hmiss ih =>
    have hlong : ¬ p :: ps <+: c :: (cs ++ (p :: ps ++ rest)) := by
      intro hstart
      rcases of_prefix_append (a := c :: cs) hstart with hshort | ⟨_ | ⟨q, qs⟩, hqs, hsplit⟩
      · exact hmiss hshort
      · rw [List.append_nil] at hsplit
        exact hmiss (hsplit ▸ List.prefix_refl _)
      · -- the occurrence would end in the pattern, and start there once more
        obtain ⟨rfl, -⟩ := List.cons_prefix_cons.mp hqs
        obtain ⟨-, rfl⟩ := List.cons.inj hsplit
        exact hp (List.mem_append_right cs List.mem_cons_self)
    obtain ⟨first, pieces, hpieces, hcons⟩ := exists_consPiece p ps c cs
    rw [List.cons_append, splitAt_miss hlong, ih, splitAt_miss hmiss, hcons, hpieces]
    rfl

theorem splitAt_intercalate (hp : p ∉ ps) {items : List (List Char)} (h : items ≠ []) :
    splitAt (p :: ps) ((p :: ps).intercalate items) = items.flatMap (splitAt (p :: ps)) := by
  induction items with
  | nil => exact absurd rfl h
  | cons item items ih =>
    cases items with
    | nil => simp
    | cons next items =>
      rw [List.intercalate_cons_cons, List.append_assoc, splitAt_append hp,
        ih (List.cons_ne_nil _ _)]
      rfl

/-! ### Occurrences in parts of a text -/

/-- An occurrence does not go across a character that the pattern does not have. -/
theorem infix_or_infix {pattern a b : List Char} {x : Char} (hx : x ∉ pattern)
    (h : pattern <:+: a ++ x :: b) : pattern <:+: a ∨ pattern <:+: b := by
  induction a with
  | nil =>
    rcases List.infix_cons_iff.mp h with hstart | hrest
    · rcases List.prefix_cons_iff.mp hstart with rfl | ⟨rest, rfl, -⟩
      · exact .inl List.nil_infix
      · exact absurd List.mem_cons_self hx
    · exact .inr hrest
  | cons c a ih =>
    rcases List.infix_cons_iff.mp h with hstart | hrest
    · rcases of_prefix_append (a := c :: a) hstart with hfirst | ⟨rest, hrest, rfl⟩
      · exact .inl hfirst.isInfix
      · rcases List.prefix_cons_iff.mp hrest with rfl | ⟨rest, rfl, -⟩
        · rw [List.append_nil]
          exact .inl (List.infix_refl _)
        · exact absurd (List.mem_append_right _ List.mem_cons_self) hx
    · exact (ih hrest).imp_left fun hin => hin.trans (List.suffix_cons c a).isInfix

/-- An occurrence does not end where the last character of the pattern is not. -/
theorem infix_of_not_mem {init a b : List Char} {last : Char} (hlast : last ∉ b)
    (h : init ++ [last] <:+: a ++ b) : init ++ [last] <:+: a := by
  induction b using List.reverseRecOn with
  | nil => simpa using h
  | append_singleton b y ih =>
    rw [List.mem_append, List.mem_singleton, not_or] at hlast
    rw [← List.append_assoc] at h
    rcases List.infix_concat_iff.mp h with hend | hin
    · obtain ⟨front, hfront⟩ := hend
      rw [← List.append_assoc] at hfront
      obtain ⟨-, hy⟩ := List.append_inj' hfront rfl
      exact absurd (List.cons.inj hy).1 hlast.2
    · exact ih hlast.1 hin

/-! ### The first occurrence -/

theorem dropLead?_append (pattern rest : List Char) :
    dropLead? pattern (pattern ++ rest) = some rest := by
  induction pattern with
  | nil => rfl
  | cons p ps ih =>
    rw [List.cons_append, dropLead?, if_pos rfl]
    exact ih

/-- What stands in front of a pattern that does not occur there before is found. -/
theorem splitFirst?_append {pattern front : List Char} (rest : List Char)
    (h : ¬ pattern <:+: front ++ pattern.dropLast) (hpattern : pattern ≠ []) :
    splitFirst? pattern (front ++ (pattern ++ rest)) = some (front, rest) := by
  have hhit : dropLead? pattern (pattern ++ rest) = some rest := dropLead?_append pattern rest
  induction front with
  | nil =>
    obtain ⟨q, qs, rfl⟩ := List.exists_cons_of_ne_nil hpattern
    rw [List.nil_append, List.cons_append, splitFirst?]
    rw [List.cons_append] at hhit
    rw [hhit]
  | cons c front ih =>
    have hno : ¬ pattern <+: c :: front ++ (pattern ++ rest) := by
      intro hstart
      have hinit : c :: front ++ pattern.dropLast <+: c :: front ++ (pattern ++ rest) :=
        (List.prefix_append_right_inj _).mpr
          ((List.dropLast_prefix pattern).trans (List.prefix_append _ _))
      have hlength : pattern.length ≤ (c :: front ++ pattern.dropLast).length := by
        simp only [List.length_append, List.length_cons, List.length_dropLast]
        omega
      exact h (List.prefix_of_prefix_length_le hstart hinit hlength).isInfix
    have hmiss : dropLead? pattern (c :: front ++ (pattern ++ rest)) = none := by
      rw [← Option.not_isSome_iff_eq_none, isSome_dropLead?]
      exact hno
    rw [List.cons_append] at hmiss ⊢
    rw [splitFirst?, hmiss, ih fun hmem => h (hmem.trans (List.suffix_cons c _).isInfix)]
    rfl

end BoundSql.Text
