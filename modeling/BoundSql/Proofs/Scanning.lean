import BoundSql.Proofs.Tokens
import BoundSql.Template.Scan
import Mathlib.Data.List.TakeWhile

/-!
# Scanning

A lexeme is a run of characters, and where the run ends is seen at the character behind it.  So a
lexeme is found again in front of other characters, as long as the first of them ends the run.  This
is so in front of a space, where scanning starts anew unless a literal is open
(`Template.scan_append_space`).
-/

namespace BoundSql

namespace Template

theorem lexemes_nil : lexemes [] = [] := by
  rw [lexemes]

theorem lexemes_cons (c : Char) (cs : List Char) :
    lexemes (c :: cs) = (lexeme c cs).1 :: lexemes (lexeme c cs).2 := by
  rw [lexemes]

/-! ### Runs of characters -/

section

variable {p : Char → Bool} {c : Char} {cs : List Char}

/-- What a run of characters ends before ends it whatever comes behind. -/
theorem span_append_of_dropWhile {rest : List Char} (h : cs.dropWhile p = c :: rest)
    (ds : List Char) :
    (cs ++ ds).takeWhile p = cs.takeWhile p ∧ (cs ++ ds).dropWhile p = c :: rest ++ ds := by
  induction cs with
  | nil => cases h
  | cons d cs ih =>
    by_cases hd : p d = true
    · rw [List.dropWhile_cons_of_pos hd] at h
      obtain ⟨htake, hdrop⟩ := ih h
      simp [hd, htake, hdrop]
    · rw [List.dropWhile_cons_of_neg hd] at h
      rw [← h]
      simp [hd]

theorem span_append_cons (hc : p c = false) (cs ds : List Char) :
    (cs ++ c :: ds).takeWhile p = cs.takeWhile p ∧
      (cs ++ c :: ds).dropWhile p = cs.dropWhile p ++ c :: ds := by
  induction cs with
  | nil => simp [hc]
  | cons d cs ih =>
    by_cases hd : p d = true
    · simp [hd, ih]
    · simp [hd]

/-- A run ends where the next character is none of its own. -/
theorem span_append_of_head? (hcs : ∀ c ∈ cs, p c = true) (ds : List Char)
    (hds : ∀ d ∈ ds.head?, p d = false) :
    (cs ++ ds).takeWhile p = cs ∧ (cs ++ ds).dropWhile p = ds := by
  induction cs with
  | nil =>
    cases ds with
    | nil => exact ⟨rfl, rfl⟩
    | cons d ds => simp [hds d rfl]
  | cons c cs ih =>
    obtain ⟨htake, hdrop⟩ := ih fun d hd => hcs d (List.mem_cons_of_mem _ hd)
    simp [hcs c List.mem_cons_self, htake, hdrop]

end

/-! ### Scanning behind a space -/

/-- A literal without its closing quote. -/
def isOpenLiteral : Token → Bool
  | .text s =>
    match s.toList with
    | q :: body => isQuote q && !body.contains q
    | [] => false
  | _ => false

/-- The template does not end inside a literal. -/
def Terminated (template : String) : Prop :=
  ∀ t ∈ lexemes template.toList, isOpenLiteral t = false

instance (template : String) : Decidable (Terminated template) :=
  inferInstanceAs (Decidable (∀ t ∈ lexemes template.toList, isOpenLiteral t = false))

theorem isOpenLiteral_of_not_mem {q : Char} {body : List Char} (hq : isQuote q = true)
    (hbody : q ∉ body) : isOpenLiteral (textOf (q :: body)) = true := by
  simp [isOpenLiteral, textOf, hq, hbody]

/-- A lexeme that is neither plain text nor an open literal ends before a space. -/
theorem lexeme_append_space {c : Char} {cs : List Char} (hplain : isPlain c = false)
    (hopen : isOpenLiteral (lexeme c cs).1 = false) (ds : List Char) :
    lexeme c (cs ++ ' ' :: ds) = ((lexeme c cs).1, (lexeme c cs).2 ++ ' ' :: ds) := by
  have hspace := span_append_cons (p := isNamePart) (c := ' ') rfl
  unfold lexeme at hopen ⊢
  by_cases hquote : isQuote c = true
  · rw [if_pos hquote] at hopen
    rw [if_pos hquote, if_pos hquote]
    unfold literal at hopen ⊢
    cases hrest : cs.dropWhile (· != c) with
    | nil =>
      rw [hrest] at hopen
      have hbody : c ∉ cs.takeWhile (· != c) := by
        intro hmem
        simpa using List.mem_takeWhile_imp hmem
      rw [isOpenLiteral_of_not_mem hquote hbody] at hopen
      cases hopen
    | cons d rest =>
      obtain ⟨htake, hdrop⟩ := span_append_of_dropWhile hrest (' ' :: ds)
      simp only [htake, hdrop]
      rfl
  · have hsign : isSign c = true := by
      simpa [isPlain, hquote] using hplain
    rw [if_neg hquote, if_pos hsign, if_neg hquote, if_pos hsign]
    cases cs with
    | nil =>
      have hne : ' ' ≠ c := by
        rintro rfl
        cases hsign
      have hstart : isNameStart ' ' = false := rfl
      simp [signed, hne, hstart]
    | cons d rest =>
      simp only [List.cons_append, signed]
      split
      · simp [hspace]
      · split
        · rw [← List.cons_append]
          simp only [hspace]
        · rfl

open Token (compact consText)

theorem lexeme_of_plain {c : Char} (hc : isPlain c = true) (cs : List Char) :
    lexeme c cs = (textOf (c :: cs.takeWhile isPlain), cs.dropWhile isPlain) := by
  obtain ⟨hquote, hsign⟩ : isQuote c = false ∧ isSign c = false := by
    simpa [isPlain] using hc
  simp [lexeme, hquote, hsign]

/-- Plain characters are text of their own, until neighbouring texts are merged. -/
theorem compact_lexemes_plain {cs : List Char} (hcs : ∀ c ∈ cs, isPlain c = true)
    (ds : List Char) :
    compact (lexemes (cs ++ ds)) = consText (String.ofList cs) (compact (lexemes ds)) := by
  have hfirst : ∀ c, isPlain c = true → ∀ ds,
      compact (lexemes (c :: ds)) = consText (String.ofList [c]) (compact (lexemes ds)) := by
    intro c hc ds
    rw [lexemes_cons, lexeme_of_plain hc]
    cases ds with
    | nil => rfl
    | cons d ds =>
      by_cases hd : isPlain d = true
      · -- a run of plain characters starts here already
        rw [List.takeWhile_cons_of_pos hd, List.dropWhile_cons_of_pos hd]
        rw [lexemes_cons d ds, lexeme_of_plain hd]
        simp only [textOf, compact, Token.consText_consText]
        rw [← String.ofList_append]
        rfl
      · rw [List.takeWhile_cons_of_neg hd, List.dropWhile_cons_of_neg hd]
        rfl
  induction cs with
  | nil => rfl
  | cons c cs ih =>
    rw [List.cons_append, hfirst c (hcs c List.mem_cons_self),
      ih fun d hd => hcs d (List.mem_cons_of_mem _ hd), Token.consText_consText,
      ← String.ofList_append]
    rfl

/-- Behind a space scanning starts anew, unless a literal is open.  The induction is on the lexemes
in front of the space; a run of plain text goes on behind it. -/
theorem compact_lexemes_append_space {cs : List Char}
    (hcs : ∀ t ∈ lexemes cs, isOpenLiteral t = false) (ds : List Char) :
    compact (lexemes (cs ++ ' ' :: ds)) = compact (lexemes cs ++ .text " " :: lexemes ds) := by
  induction cs using lexemes.induct with
  | case1 =>
    have hspace : ∀ c ∈ [' '], isPlain c = true := by
      intro c hc
      obtain rfl := List.mem_singleton.mp hc
      rfl
    rw [lexemes_nil]
    exact compact_lexemes_plain hspace ds
  | case2 c rest ih =>
    rw [lexemes_cons] at hcs
    have hrest := ih fun t ht => hcs t (List.mem_cons_of_mem _ ht)
    rw [lexemes_cons c rest, List.cons_append, List.cons_append]
    by_cases hplain : isPlain c = true
    · rw [lexeme_of_plain hplain] at hrest ⊢
      have hrun : ∀ d ∈ c :: rest.takeWhile isPlain, isPlain d = true := by
        intro d hd
        rcases List.mem_cons.mp hd with rfl | hd
        · exact hplain
        · exact List.mem_takeWhile_imp hd
      have hsplit : c :: (rest ++ ' ' :: ds) =
          (c :: rest.takeWhile isPlain) ++ (rest.dropWhile isPlain ++ ' ' :: ds) := by
        rw [List.cons_append, ← List.append_assoc, List.takeWhile_append_dropWhile]
      rw [hsplit, compact_lexemes_plain hrun, hrest]
      rfl
    · have hlexeme := lexeme_append_space (by simpa using hplain) (hcs _ List.mem_cons_self) ds
      rw [lexemes_cons, hlexeme]
      exact Token.compact_append_congr hrest [_]

theorem scan_append_space {t₁ : String} (h : Terminated t₁) (t₂ : String) :
    scan (t₁ ++ " " ++ t₂) = compact (scan t₁ ++ .text " " :: scan t₂) := by
  have hchars : (t₁ ++ " " ++ t₂).toList = t₁.toList ++ ' ' :: t₂.toList := by simp
  unfold scan
  rw [hchars, compact_lexemes_append_space h, Token.compact_compact_append]
  exact (Token.compact_append_congr (Token.compact_append_compact [.text " "] _) _).symm

end Template

end BoundSql
