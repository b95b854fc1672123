import BoundSql.Dialect.Standard
import BoundSql.Proofs.Meaning
import Mathlib.Data.List.Infix

/-!
# What patterns find

A pattern of SQL is matched from both ends of a text: a percent sign stands for any characters, an
underscore for any one of them, and everything else for itself.  The patterns made from a text have
a percent sign in front of it, behind it, or both, so they match where a part of the other text (a
prefix, a suffix, or any) matches the text (`Pattern.accepts_around`).

The text itself goes into the pattern as it is, and nothing takes the meaning of a wildcard away.
So what is found is the text, everywhere and nothing else, exactly if no wildcard is in it
(`Method.finds_iff_part`): any other text is also found where its wildcards stand for something
else.
-/

namespace BoundSql

namespace Pattern

/-! ### Matching -/

/-- Whether the pattern matches the whole text. -/
def accepts : List Char → List Char → Bool
  | [], cs => cs.isEmpty
  | p :: ps, cs =>
    if p = '%' then cs.tails.any (accepts ps)
    else match cs with
      | [] => false
      | c :: rest => (p == '_' || p == c) && accepts ps rest

/-- The characters that do not stand for themselves alone. -/
def isWildcard (c : Char) : Bool := c == '%' || c == '_'

theorem accepts_nil {cs : List Char} : accepts [] cs = true ↔ cs = [] := List.isEmpty_iff

theorem accepts_percent {ps cs : List Char} :
    accepts ('%' :: ps) cs = true ↔ ∃ rest, rest <:+ cs ∧ accepts ps rest = true := by
  rw [accepts.eq_def]
  simp only [if_true, List.any_eq_true, List.mem_tails]

theorem accepts_cons {p : Char} (hp : p ≠ '%') {ps cs : List Char} :
    accepts (p :: ps) cs = true ↔
      ∃ c rest, cs = c :: rest ∧ (p = '_' ∨ p = c) ∧ accepts ps rest = true := by
  rw [accepts.eq_def]
  cases cs with
  | nil => simp [hp]
  | cons c rest => simp [hp]

/-- A percent sign at the end leaves a prefix to the pattern in front of it. -/
theorem accepts_append_percent {ps cs : List Char} :
    accepts (ps ++ ['%']) cs = true ↔ ∃ front, front <+: cs ∧ accepts ps front = true := by
  induction ps generalizing cs with
  | nil =>
    rw [List.nil_append, accepts_percent]
    constructor
    · intro _
      exact ⟨[], List.nil_prefix, rfl⟩
    · intro _
      exact ⟨[], List.nil_suffix, rfl⟩
  | cons p ps ih =>
    rw [List.cons_append]
    by_cases hp : p = '%'
    · -- a suffix of a prefix is a prefix of a suffix
      subst hp
      simp only [accepts_percent, ih]
      constructor
      · rintro ⟨rest, ⟨lead, rfl⟩, front, ⟨tail, rfl⟩, haccepts⟩
        refine ⟨lead ++ front, ?_, front, List.suffix_append _ _, haccepts⟩
        rw [← List.append_assoc]
        exact List.prefix_append _ _
      · rintro ⟨_, ⟨tail, rfl⟩, front, ⟨lead, rfl⟩, haccepts⟩
        refine ⟨front ++ tail, ?_, front, List.prefix_append _ _, haccepts⟩
        rw [List.append_assoc]
        exact List.suffix_append _ _
    · simp only [accepts_cons hp, ih]
      constructor
      · rintro ⟨c, rest, rfl, hc, front, hfront, haccepts⟩
        exact ⟨c :: front, (List.prefix_cons_inj c).mpr hfront, c, front, rfl, hc, haccepts⟩
      · rintro ⟨_, hfront, c, front, rfl, hc, haccepts⟩
        obtain ⟨rest, rfl⟩ := hfront
        exact ⟨c, front ++ rest, rfl, hc, front, List.prefix_append _ _, haccepts⟩

/-- A pattern without wildcards matches itself only. -/
theorem accepts_of_plain {ps : List Char} (hps : ∀ p ∈ ps, isWildcard p = false) {cs : List Char} :
    accepts ps cs = true ↔ cs = ps := by
  induction ps generalizing cs with
  | nil => exact accepts_nil
  | cons p ps ih =>
    obtain ⟨hpercent, hunderscore⟩ : p ≠ '%' ∧ p ≠ '_' := by
      simpa [isWildcard] using hps p List.mem_cons_self
    rw [accepts_cons hpercent]
    simp only [ih fun q hq => hps q (List.mem_cons_of_mem _ hq), hunderscore, false_or]
    constructor
    · rintro ⟨c, rest, rfl, rfl, rfl⟩
      rfl
    · rintro rfl
      exact ⟨p, ps, rfl, rfl, rfl⟩

/-- The text with a letter in place of each wildcard. -/
def disguised (ps : List Char) : List Char := ps.map fun p => if isWildcard p then 'x' else p

theorem accepts_disguised (ps : List Char) : accepts ps (disguised ps) = true := by
  induction ps with
  | nil => rfl
  | cons p ps ih =>
    by_cases hp : p = '%'
    · subst hp
      exact accepts_percent.mpr ⟨disguised ps, List.suffix_cons _ _, ih⟩
    · rw [accepts_cons hp]
      refine ⟨_, disguised ps, rfl, ?_, ih⟩
      by_cases hunderscore : p = '_'
      · exact .inl hunderscore
      · simp [isWildcard, hp, hunderscore]

theorem plain_of_disguised_eq {ps : List Char} (h : disguised ps = ps) :
    ∀ p ∈ ps, isWildcard p = false := by
  intro p hp
  rw [← h] at hp
  obtain ⟨q, -, rfl⟩ := List.mem_map.mp hp
  by_cases hq : isWildcard q = true
  · rw [if_pos hq]
    rfl
  · rw [if_neg hq]
    simpa using hq

end Pattern

open Pattern

/-! ### Parts of texts -/

namespace Method

/-- The part of another text that a method asks for. -/
def Part : Method → List Char → List Char → Prop
  | contains, part, cs => part <:+: cs
  | startsWith, part, cs => part <+: cs
  | endsWith, part, cs => part <:+ cs

/-- A part of the text is matched by the other one, wildcards included. -/
def Finds (method : Method) (text s : String) : Prop :=
  ∃ part, method.Part part s.toList ∧ accepts text.toList part = true

/-- A part as long as the whole is the whole. -/
theorem Part.eq_of_length {method : Method} {part cs : List Char} (h : method.Part part cs)
    (hlength : cs.length ≤ part.length) : part = cs := by
  cases method with
  | contains => exact h.eq_of_length_le hlength
  | startsWith => exact h.eq_of_length_le hlength
  | endsWith => exact h.eq_of_length_le hlength

variable {method : Method} {text s : String}

theorem finds_iff_part_of_plain (htext : ∀ c ∈ text.toList, isWildcard c = false) :
    method.Finds text s ↔ method.Part text.toList s.toList := by
  unfold Finds
  simp only [accepts_of_plain htext, exists_eq_right]

/-- A text is found as a part of others, and only there, exactly if it has no wildcards. -/
theorem finds_iff_part :
    (∀ s : String, method.Finds text s ↔ method.Part text.toList s.toList) ↔
      ∀ c ∈ text.toList, isWildcard c = false := by
  refine ⟨fun h => ?_, fun htext s => finds_iff_part_of_plain htext⟩
  -- it is found as its disguise, which is no longer than the text itself
  let s := String.ofList (disguised text.toList)
  have hs : s.toList = disguised text.toList := String.toList_ofList
  have hwhole : method.Part (disguised text.toList) s.toList := by
    rw [hs]
    cases method with
    | contains => exact List.infix_refl _
    | startsWith => exact List.prefix_refl _
    | endsWith => exact List.suffix_refl _
  have hpart := (h s).mp ⟨_, hwhole, accepts_disguised text.toList⟩
  have hlength : s.toList.length ≤ text.toList.length := by
    rw [hs]
    exact (List.length_map _).le
  have hsame := hpart.eq_of_length hlength
  exact plain_of_disguised_eq (by rw [← hs, hsame])

end Method

/-- `LIKE` without a character that takes the meaning of wildcards away. -/
def Interpretation.LikesTexts (I : Interpretation) : Prop :=
  ∀ s pattern : String, I.like (.varchar s) (.varchar pattern) =
    .ofBool (accepts pattern.toList s.toList)

/-- Matches texts, and leaves everything else unknown. -/
def Interpretation.matching : Interpretation where
  compare _ _ _ := .unknown
  like
    | .varchar s, .varchar pattern => .ofBool (accepts pattern.toList s.toList)
    | _, _ => .unknown

theorem Interpretation.likesTexts_matching : matching.LikesTexts := fun _ _ => rfl

namespace Dialect

variable (d : Dialect)

/-- The pattern made from a text matches where the text, as a pattern, matches the part asked
for. -/
theorem accepts_pattern (method : Method) (text : String) :
    ∃ pattern : String, (d.pattern method text).value = .varchar pattern ∧
      ∀ s : String, accepts pattern.toList s.toList = true ↔ method.Finds text s := by
  cases method with
  | contains =>
    refine ⟨"%" ++ text ++ "%", rfl, ?_⟩
    intro s
    have hpattern : ("%" ++ text ++ "%").toList = '%' :: (text.toList ++ ['%']) := by simp
    rw [hpattern, accepts_percent]
    simp only [accepts_append_percent]
    constructor
    · rintro ⟨rest, hrest, part, hpart, haccepts⟩
      exact ⟨part, hpart.isInfix.trans hrest.isInfix, haccepts⟩
    · rintro ⟨part, hpart, haccepts⟩
      obtain ⟨rest, hprefix, hsuffix⟩ := List.infix_iff_prefix_suffix.mp hpart
      exact ⟨rest, hsuffix, part, hprefix, haccepts⟩
  | startsWith =>
    refine ⟨text ++ "%", rfl, ?_⟩
    intro s
    have hpattern : (text ++ "%").toList = text.toList ++ ['%'] := by simp
    rw [hpattern, accepts_append_percent]
    rfl
  | endsWith =>
    refine ⟨"%" ++ text, rfl, ?_⟩
    intro s
    have hpattern : ("%" ++ text).toList = '%' :: text.toList := by simp
    rw [hpattern, accepts_percent]
    rfl

/-- The pattern of a text in a row, where a marker stands for it. -/
theorem like_pattern_holds_iff {I : Interpretation} (hI : I.LikesTexts) (method : Method)
    (text s : String) :
    I.like (.varchar s) (d.pattern method text).value = .holds ↔ method.Finds text s := by
  obtain ⟨pattern, hpattern, haccepts⟩ := d.accepts_pattern method text
  rw [hpattern, hI, ← haccepts]
  cases accepts pattern.toList s.toList with
  | true => simp [Truth.ofBool]
  | false => simp [Truth.ofBool]

/-- The condition of a method on a column, asked with a text. -/
theorem compile_text_call (scope : Scope) {receiver arg : Node} {c : ColumnRef × Option String}
    (hc : receiver.column? = some c) {text : String} (htext : arg.evaluate = .ok (.varchar text))
    (method : Method) (names : Names) :
    ∃ marker f after,
      d.compile scope .filter (.call method receiver [arg]) names = (.ok f, after) ∧
        f.tokens = (Condition.like false (d.columnText scope c) marker).tokens ∧
        f.bindings = [⟨marker, (d.pattern method text).value⟩] := by
  let marker := (names.claim c.1.field).1
  let value := (d.pattern method text).value
  have hsplice : (d.pattern method text).splice c.1.field names =
      (.ok (.param marker value), (names.claim c.1.field).2) := by
    cases method <;> rfl
  have hrun : d.compile scope .filter (.call method receiver [arg]) names =
      (.ok (.text (d.columnText scope c ++ " LIKE ") ++ .param marker value),
        (names.claim c.1.field).2) := by
    show d.callCondition scope false method receiver [arg] names = _
    simp only [callCondition, hc, likeness, htext]
    show ((d.pattern method text).splice c.1.field >>= _) names = _
    rw [bind_apply, hsplice]
    rfl
  refine ⟨marker, _, _, hrun, ?_, rfl⟩
  simp [Condition.tokens, Condition.pieces, Token.append_compact]

/-- The predicates on texts: of a text and a method, the pattern matches the texts in a part of
which the text is found; for all texts these are those that have the text as such a part, exactly if
it has no wildcard in it; and asked of a column, the predicate selects the rows in which the text is
found like that in the column. -/
theorem text_predicates_find (method : Method) (text : String) (I : Interpretation)
    (hI : I.LikesTexts) :
    (∀ s : String,
      I.like (.varchar s) (d.pattern method text).value = .holds ↔ method.Finds text s) ∧
    ((∀ s : String, method.Finds text s ↔ method.Part text.toList s.toList) ↔
      ∀ c ∈ text.toList, c ≠ '%' ∧ c ≠ '_') ∧
    ∀ (scope : Scope) (receiver arg : Node) (c : ColumnRef × Option String) (names : Names),
      receiver.column? = some c → arg.evaluate = .ok (.varchar text) →
        ∃ marker f after,
          d.compile scope .filter (.call method receiver [arg]) names = (.ok f, after) ∧
          f.tokens = (Condition.like false (d.columnText scope c) marker).tokens ∧
          ∀ (row : String → Value) (s : String), row (d.columnText scope c) = .varchar s →
            ((Condition.like false (d.columnText scope c) marker).eval I row
              (Fragment.valueOf f.bindings) = .holds ↔ method.Finds text s) := by
  refine ⟨d.like_pattern_holds_iff hI method text, ?_, ?_⟩
  · rw [Method.finds_iff_part]
    simp [isWildcard]
  · intro scope receiver arg c names hc htext
    obtain ⟨marker, f, after, hrun, htokens, hbindings⟩ :=
      d.compile_text_call scope hc htext method names
    refine ⟨marker, f, after, hrun, htokens, ?_⟩
    intro row s hrow
    have hvalue : Fragment.valueOf f.bindings marker = (d.pattern method text).value := by
      rw [hbindings]
      simp [Fragment.valueOf]
    rw [Condition.eval, hrow, hvalue, Truth.negatedIf_false]
    exact d.like_pattern_holds_iff hI method text s

/-- Orders with a note that starts with a word. -/
theorem text_predicates_find_gift :
    let I := Interpretation.matching
    let note : ColumnRef × Option String := (⟨"note", "note", "orders"⟩, none)
    I.LikesTexts ∧
      (∀ s : String, I.like (.varchar s) (sqlite.pattern .startsWith "gift").value = .holds ↔
        "gift".toList <+: s.toList) ∧
      ∃ marker f after,
        sqlite.compile .standard .filter
          (.call .startsWith (.member note.1 note.2) [.constant (.varchar "gift")]) .none =
            (.ok f, after) ∧
        f.tokens = (Condition.like false "t.\x60note\x60" marker).tokens ∧
        ∀ (row : String → Value) (s : String), row "t.\x60note\x60" = .varchar s →
          ((Condition.like false "t.\x60note\x60" marker).eval I row
            (Fragment.valueOf f.bindings) = .holds ↔ "gift".toList <+: s.toList) := by
  intro I note
  have hI : I.LikesTexts := Interpretation.likesTexts_matching
  obtain ⟨hpattern, hplain, hcolumn⟩ := sqlite.text_predicates_find .startsWith "gift" I hI
  have hfinds : ∀ s : String, Method.startsWith.Finds "gift" s ↔ "gift".toList <+: s.toList :=
    hplain.mpr (by simp)
  obtain ⟨marker, f, after, hrun, htokens, hrows⟩ :=
    hcolumn .standard (.member note.1 note.2) (.constant (.varchar "gift")) note .none rfl rfl
  have htext : sqlite.columnText .standard note = "t.\x60note\x60" := by decide +kernel
  rw [htext] at htokens hrows
  refine ⟨hI, fun s => (hpattern s).trans (hfinds s), marker, f, after, hrun, htokens, ?_⟩
  intro row s hrow
  exact (hrows row s hrow).trans (hfinds s)

/-- Texts with a percent sign in them are found where they do not stand. -/
theorem percent_found_elsewhere :
    ¬ ∀ (d : Dialect) (method : Method) (text : String) (I : Interpretation), I.LikesTexts →
        ∀ s : String, I.like (.varchar s) (d.pattern method text).value = .holds ↔
          method.Part text.toList s.toList := by
  intro hclaim
  have hmatch := hclaim sqlite .contains "50%" .matching Interpretation.likesTexts_matching "500"
  have hpart : "50%".toList <:+: "500".toList := hmatch.mp (by decide +kernel)
  revert hpart
  decide +kernel

end Dialect

end BoundSql
