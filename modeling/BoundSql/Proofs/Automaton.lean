import BoundSql.Proofs.Rescanning

/-!
# Reading templates one character at a time

Scanning takes up runs of characters and looks ahead for where they end.  Here a template is read by
an automaton that sees one character after the other and keeps how it reads them: as text, inside a
literal, behind a sign, or in the name behind two equal signs.  A sign opens a placeholder if it is
read as text, is no part of a pair of equal signs and is followed by the start of a name.

Both agree on every template (`Template.scan_pieces`): what was scanned is the template cut into
pieces, and the pieces that are placeholders start exactly at the signs that open one.  The
automaton marks the characters, each lexeme says how its own characters are marked, and in between
the automaton is back at text (`Template.reads_lexeme`).
-/

namespace BoundSql

namespace Template

/-! ### The automaton -/

/-- How the characters of a template are read. -/
inductive State where
  | text
  /-- Inside the literal or quoted identifier that a quote has opened. -/
  | inside (q : Char)
  /-- Behind a sign that is not the second one of a pair. -/
  | behind (sign : Char)
  /-- In the name behind a pair of equal signs. -/
  | name
  deriving DecidableEq

namespace State

/-- How a character is read: behind a sign only its like goes on with it, and a name ends at the
first character that is no part of names. -/
def meets : State → Char → State
  | text, _ => text
  | inside q, _ => inside q
  | behind sign, c => if c = sign then behind sign else text
  | name, c => if isNamePart c then name else text

/-- How the characters behind a character are read. -/
def next (s : State) (c : Char) : State :=
  match s.meets c with
  | text => if isQuote c then inside c else if isSign c then behind c else text
  | inside q => if c = q then text else inside q
  | behind _ => name
  | name => name

/-- A sign in the text, followed by the start of a name, opens a placeholder. -/
def opens (s : State) (c : Char) (ahead : Option Char) : Bool :=
  s.meets c = text && isSign c && ahead.any isNameStart

/-- Which of the characters open a placeholder. -/
def marks (s : State) : List Char → List Bool
  | [] => []
  | c :: cs => s.opens c cs.head? :: marks (s.next c) cs

/-- A character is marked by how it is read behind those in front of it. -/
theorem getElem?_marks (s : State) (cs : List Char) (i : Nat) :
    (s.marks cs)[i]? = cs[i]?.map fun c => ((cs.take i).foldl next s).opens c cs[i + 1]? := by
  induction cs generalizing s i with
  | nil => rfl
  | cons c cs ih =>
    cases i with
    | zero => simp [marks, List.head?_eq_getElem?]
    | succ i => simpa [marks] using ih (s.next c) i

/-- Where the next character is read as text, what came before does not matter. -/
theorem marks_of_meets {s : State} {cs : List Char} (h : ∀ c ∈ cs.head?, s.meets c = text) :
    s.marks cs = text.marks cs := by
  cases cs with
  | nil => rfl
  | cons c cs =>
    have hc : s.meets c = text := h c rfl
    have hopens : s.opens c cs.head? = text.opens c cs.head? := by
      unfold opens
      rw [hc]
      rfl
    have hnext : s.next c = text.next c := by
      unfold next
      rw [hc]
      rfl
    rw [marks, marks, hopens, hnext]

/-! ### Runs of characters -/

/-- Characters that open nothing and leave the automaton where it is. -/
theorem marks_append_of_stays {s : State} {cs : List Char}
    (hcs : ∀ c ∈ cs, s.next c = s ∧ ∀ ahead, s.opens c ahead = false) (ds : List Char) :
    s.marks (cs ++ ds) = List.replicate cs.length false ++ s.marks ds := by
  induction cs with
  | nil => rfl
  | cons c cs ih =>
    obtain ⟨hnext, hopens⟩ := hcs c List.mem_cons_self
    rw [List.cons_append, marks, hnext, hopens, ih fun d hd => hcs d (List.mem_cons_of_mem _ hd)]
    rfl

theorem marks_plain {cs : List Char} (hcs : ∀ c ∈ cs, isPlain c = true) (ds : List Char) :
    text.marks (cs ++ ds) = List.replicate cs.length false ++ text.marks ds := by
  apply marks_append_of_stays
  intro c hc
  obtain ⟨hquote, hsign⟩ : isQuote c = false ∧ isSign c = false := by
    simpa [isPlain] using hcs c hc
  simp [next, opens, meets, hquote, hsign]

theorem marks_inside {q : Char} {cs : List Char} (hcs : ∀ c ∈ cs, (c != q) = true)
    (ds : List Char) :
    (inside q).marks (cs ++ ds) = List.replicate cs.length false ++ (inside q).marks ds := by
  apply marks_append_of_stays
  intro c hc
  have hne : c ≠ q := by simpa using hcs c hc
  simp [next, opens, meets, hne]

theorem marks_name {cs : List Char} (hcs : ∀ c ∈ cs, isNamePart c = true) (ds : List Char) :
    name.marks (cs ++ ds) = List.replicate cs.length false ++ name.marks ds := by
  apply marks_append_of_stays
  intro c hc
  simp [next, opens, meets, hcs c hc]

end State

/-! ### Pieces -/

/-- A part of a template. -/
inductive Piece where
  | text (s : String)
  /-- A name and the sign in front of it. -/
  | placeholder (sign : Char) (name : String)

/-- A name starts with a letter or an underscore and goes on with letters, digits and
underscores. -/
def IsName (name : String) : Prop :=
  ∃ c cs, name.toList = c :: cs ∧ isNameStart c = true ∧ ∀ d ∈ cs, isNamePart d = true

namespace Piece

/-- The token that a part of a template is scanned as. -/
def token : Piece → Token
  | text s => .text s
  | placeholder _ name => .param name

def chars : Piece → List Char
  | text s => s.toList
  | placeholder sign name => sign :: name.toList

/-- Of the characters of a piece the sign of a placeholder opens one. -/
def marks : Piece → List Bool
  | text s => List.replicate s.toList.length false
  | placeholder _ name => true :: List.replicate name.toList.length false

/-- In front of the characters the name of a placeholder is at its end. -/
def EndsBefore (cs : List Char) : Piece → Prop
  | text _ => True
  | placeholder sign name =>
    isSign sign = true ∧ IsName name ∧ ∀ c ∈ cs.head?, isNamePart c = false

/-- Each of the pieces ends before those behind it. -/
def Ended : List Piece → Prop
  | [] => True
  | p :: ps => p.EndsBefore (ps.flatMap chars) ∧ Ended ps

theorem Ended.endsBefore {front back : List Piece} {p : Piece}
    (h : Ended (front ++ p :: back)) : p.EndsBefore (back.flatMap chars) := by
  induction front with
  | nil => exact h.1
  | cons q front ih => exact ih h.2

/-- Neighbouring pieces of text can be merged, as the tokens are, and nothing else changes. -/
theorem exists_compact (ps : List Piece) :
    ∃ qs : List Piece, qs.map token = Token.compact (ps.map token) ∧
      qs.flatMap chars = ps.flatMap chars ∧ qs.flatMap marks = ps.flatMap marks ∧
      (Ended ps → Ended qs) := by
  induction ps with
  | nil => exact ⟨[], rfl, rfl, rfl, id⟩
  | cons p ps ih =>
    obtain ⟨qs, htokens, hchars, hmarks, hended⟩ := ih
    cases p with
    | placeholder sign name =>
      refine ⟨.placeholder sign name :: qs, ?_, ?_, ?_, ?_⟩
      · rw [List.map_cons, htokens]
        rfl
      · rw [List.flatMap_cons, List.flatMap_cons, hchars]
      · rw [List.flatMap_cons, List.flatMap_cons, hmarks]
      · rintro ⟨hfirst, hrest⟩
        exact ⟨by rwa [hchars], hended hrest⟩
    | text s =>
      have hcompact : Token.compact ((text s :: ps).map token) =
          Token.consText s (qs.map token) := by
        rw [htokens]
        rfl
      rw [hcompact, List.flatMap_cons, List.flatMap_cons, ← hchars, ← hmarks]
      by_cases hs : s = ""
      · subst hs
        exact ⟨qs, rfl, rfl, rfl, fun h => hended h.2⟩
      · unfold Token.consText
        rw [if_neg hs]
        rcases qs with - | ⟨q, qs⟩
        · exact ⟨[text s], rfl, rfl, rfl, fun _ => ⟨trivial, trivial⟩⟩
        · cases q with
          | text u =>
            refine ⟨text (s ++ u) :: qs, rfl, ?_, ?_, fun h => ⟨trivial, (hended h.2).2⟩⟩
            · simp only [List.flatMap_cons, chars, String.toList_append, List.append_assoc]
            · simp only [List.flatMap_cons, marks, String.toList_append, List.length_append,
                ← List.replicate_append_replicate, List.append_assoc]
          | placeholder sign name =>
            exact ⟨text s :: .placeholder sign name :: qs, rfl, rfl, rfl,
              fun h => ⟨trivial, hended h.2⟩⟩

theorem getElem?_marks_append (p : Piece) (ms : List Bool) (i : Nat) :
    (p.marks ++ ms)[i]? = some true ↔
      (i = 0 ∧ ∃ sign name, p = placeholder sign name) ∨
        (p.chars.length ≤ i ∧ ms[i - p.chars.length]? = some true) := by
  -- no character behind the first one of a piece is marked
  have hlater : ∀ n j : Nat, (List.replicate n false ++ ms)[j]? = some true ↔
      n ≤ j ∧ ms[j - n]? = some true := by
    intro n j
    rcases Nat.lt_or_ge j n with hlt | hle
    · rw [List.getElem?_append_left (by simpa using hlt), List.getElem?_replicate_of_lt hlt]
      simp [hlt]
    · rw [List.getElem?_append_right (by simpa using hle), List.length_replicate]
      simp [hle]
  cases p with
  | text s => simp [marks, chars, hlater]
  | placeholder sign name =>
    cases i with
    | zero => simp [marks]
    | succ i => simp [marks, chars, hlater]

/-- The mark of a placeholder stands where the pieces in front of it end. -/
theorem getElem?_marks (ps : List Piece) (i : Nat) :
    (ps.flatMap marks)[i]? = some true ↔
      ∃ front sign name back, ps = front ++ placeholder sign name :: back ∧
        (front.flatMap chars).length = i := by
  induction ps generalizing i with
  | nil => simp
  | cons p ps ih =>
    rw [List.flatMap_cons, getElem?_marks_append, ih]
    constructor
    · rintro (⟨rfl, sign, name, rfl⟩ | ⟨hle, front, sign, name, back, rfl, hlength⟩)
      · exact ⟨[], sign, name, ps, rfl, rfl⟩
      · refine ⟨p :: front, sign, name, back, rfl, ?_⟩
        rw [List.flatMap_cons, List.length_append, hlength]
        omega
    · rintro ⟨front, sign, name, back, hsplit, rfl⟩
      cases front with
      | nil =>
        left
        exact ⟨rfl, sign, name, (List.cons.inj hsplit).1⟩
      | cons q front =>
        right
        obtain ⟨rfl, hrest⟩ := List.cons.inj hsplit
        rw [List.flatMap_cons, List.length_append]
        exact ⟨by omega, front, sign, name, back, hrest, by omega⟩

end Piece

/-! ### Lexemes -/

open State (marks)

theorem isSign_of_isQuote {q : Char} (hq : isQuote q = true) : isSign q = false := by
  by_contra hsign
  rw [isQuote_of_isSign (by simpa using hsign)] at hq
  cases hq

theorem isNameStart_of_isSign {c : Char} (hc : isSign c = true) : isNameStart c = false := by
  by_contra hstart
  have hpart := isNamePart_of_isNameStart (by simpa using hstart)
  rw [isNamePart_of_isSign hc] at hpart
  cases hpart

theorem isPlain_of_isNamePart {c : Char} (hc : isNamePart c = true) : isPlain c = true := by
  by_contra hplain
  obtain hquote | hsign : isQuote c = true ∨ isSign c = true := by
    simpa [isPlain, or_iff_not_imp_left] using hplain
  · obtain (rfl | rfl) | rfl : (c = '\'' ∨ c = '"') ∨ c = '\x60' := by simpa [isQuote] using hquote
    · cases hc
    · cases hc
    · cases hc
  · rw [isNamePart_of_isSign hsign] at hc
    cases hc

/-- The token is a piece of the template in front of the rest, read from text to text. -/
def Reads (t : Token) (rest cs : List Char) : Prop :=
  ∃ p : Piece, p.token = t ∧ p.chars ++ rest = cs ∧
    p.marks ++ State.text.marks rest = State.text.marks cs ∧ p.EndsBefore rest

theorem reads_textOf {front rest cs : List Char} (hchars : front ++ rest = cs)
    (hmarks : State.text.marks cs =
      List.replicate front.length false ++ State.text.marks rest) :
    Reads (textOf front) rest cs := by
  refine ⟨.text (String.ofList front), rfl, ?_, ?_, trivial⟩
  · rw [Piece.chars, String.toList_ofList, hchars]
  · rw [Piece.marks, String.toList_ofList, hmarks]

theorem reads_plain {c : Char} (hplain : isPlain c = true) (cs : List Char) :
    Reads (textOf (c :: cs.takeWhile isPlain)) (cs.dropWhile isPlain) (c :: cs) := by
  have hrun : ∀ d ∈ c :: cs.takeWhile isPlain, isPlain d = true := by
    intro d hd
    rcases List.mem_cons.mp hd with rfl | hd
    · exact hplain
    · exact List.mem_takeWhile_imp hd
  have hsplit : (c :: cs.takeWhile isPlain) ++ cs.dropWhile isPlain = c :: cs := by
    rw [List.cons_append, List.takeWhile_append_dropWhile]
  apply reads_textOf hsplit
  rw [← State.marks_plain hrun, hsplit]

theorem reads_literal {q : Char} (hq : isQuote q = true) (cs : List Char) :
    Reads (literal q cs).1 (literal q cs).2 (q :: cs) := by
  have hbody : ∀ c ∈ cs.takeWhile (· != q), (c != q) = true := fun _ => List.mem_takeWhile_imp
  have hsplit := List.takeWhile_append_dropWhile (p := (· != q)) (l := cs)
  have hopen : State.text.marks (q :: cs) = false :: (State.inside q).marks cs := by
    simp [marks, State.next, State.opens, State.meets, hq, isSign_of_isQuote hq]
  have hinside := State.marks_inside hbody
  unfold literal
  cases hrest : cs.dropWhile (· != q) with
  | nil =>
    rw [hrest] at hsplit
    dsimp only
    generalize cs.takeWhile (· != q) = body at hsplit hinside
    subst hsplit
    apply reads_textOf
    · simp
    · rw [hopen, hinside]
      rfl
  | cons d rest =>
    obtain rfl : d = q := by
      have hstop := List.head?_dropWhile_not (· != q) cs
      rw [hrest] at hstop
      simpa using hstop
    have hclose : (State.inside d).marks (d :: rest) = false :: State.text.marks rest := by
      simp [marks, State.next, State.opens, State.meets]
    rw [hrest] at hsplit
    dsimp only
    generalize cs.takeWhile (· != d) = body at hsplit hinside
    subst hsplit
    apply reads_textOf
    · simp
    · rw [hopen, hinside, hclose, List.length_append, ← List.replicate_append_replicate,
        List.append_assoc]
      rfl

theorem reads_signed {c : Char} (hc : isSign c = true) (cs : List Char) :
    Reads (signed c cs).1 (signed c cs).2 (c :: cs) := by
  have hsign : State.text.marks (c :: cs) =
      cs.head?.any isNameStart :: (State.behind c).marks cs := by
    simp [marks, State.next, State.opens, State.meets, isQuote_of_isSign hc, hc]
  cases cs with
  | nil => exact reads_textOf rfl hsign
  | cons d rest =>
    rw [signed]
    have hname : ∀ e ∈ rest.takeWhile isNamePart, isNamePart e = true :=
      fun _ => List.mem_takeWhile_imp
    have hstop : ∀ e ∈ (rest.dropWhile isNamePart).head?, isNamePart e = false := by
      intro e he
      have hstop := List.head?_dropWhile_not isNamePart rest
      rw [Option.mem_def.mp he] at hstop
      simpa using hstop
    have hsplit := List.takeWhile_append_dropWhile (p := isNamePart) (l := rest)
    by_cases hd : d = c
    · -- a doubled sign and the name behind it
      subst hd
      rw [if_pos rfl]
      have hsecond : (State.behind d).marks (d :: rest) = false :: State.name.marks rest := by
        simp [marks, State.next, State.opens, State.meets]
      have hnone := isNameStart_of_isSign hc
      have hend : State.name.marks (rest.dropWhile isNamePart) =
          State.text.marks (rest.dropWhile isNamePart) := by
        apply State.marks_of_meets
        intro e he
        rw [State.meets, hstop e he]
        rfl
      have hrun := State.marks_name hname (rest.dropWhile isNamePart)
      rw [hsplit, hend] at hrun
      apply reads_textOf
      · rw [List.cons_append, List.cons_append, hsplit]
      · rw [hsign, hsecond, hrun, List.head?_cons, Option.any_some, hnone]
        rfl
    · rw [if_neg hd]
      have hbehind : (State.behind c).marks (d :: rest) = State.text.marks (d :: rest) := by
        apply State.marks_of_meets
        rintro e he
        obtain rfl : d = e := by simpa using he
        exact if_neg hd
      rw [hbehind, List.head?_cons, Option.any_some] at hsign
      by_cases hstart : isNameStart d = true
      · -- a placeholder, whose name is read as text
        have hpart := isNamePart_of_isNameStart hstart
        rw [if_pos hstart, List.takeWhile_cons_of_pos hpart, List.dropWhile_cons_of_pos hpart]
        have hplain : ∀ e ∈ d :: rest.takeWhile isNamePart, isPlain e = true := by
          intro e he
          rcases List.mem_cons.mp he with rfl | he
          · exact isPlain_of_isNamePart hpart
          · exact isPlain_of_isNamePart (hname e he)
        have hrun := State.marks_plain hplain (rest.dropWhile isNamePart)
        rw [List.cons_append, hsplit] at hrun
        refine ⟨.placeholder c (String.ofList (d :: rest.takeWhile isNamePart)), rfl, ?_, ?_, hc,
          ⟨d, rest.takeWhile isNamePart, String.toList_ofList, hstart, hname⟩, hstop⟩
        · rw [Piece.chars, String.toList_ofList, List.cons_append, List.cons_append, hsplit]
        · rw [hsign, hrun, hstart, Piece.marks, String.toList_ofList]
          rfl
      · rw [if_neg hstart]
        apply reads_textOf rfl
        show State.text.marks (c :: d :: rest) = _
        rw [hsign, Bool.eq_false_iff.mpr hstart]
        rfl

theorem reads_lexeme (c : Char) (cs : List Char) :
    Reads (lexeme c cs).1 (lexeme c cs).2 (c :: cs) := by
  by_cases hplain : isPlain c = true
  · rw [lexeme_of_plain hplain]
    exact reads_plain hplain cs
  · by_cases hquote : isQuote c = true
    · have hlexeme : lexeme c cs = literal c cs := if_pos hquote
      rw [hlexeme]
      exact reads_literal hquote cs
    · have hsign : isSign c = true := by
        simpa [isPlain, hquote] using hplain
      rw [lexeme_of_isSign hsign]
      exact reads_signed hsign cs

/-- The lexemes of a template are pieces of it.  The induction is on the lexemes; behind each of
them the automaton reads text, as it does at the start. -/
theorem exists_pieces_lexemes (cs : List Char) :
    ∃ ps : List Piece, ps.map Piece.token = lexemes cs ∧ ps.flatMap Piece.chars = cs ∧
      ps.flatMap Piece.marks = State.text.marks cs ∧ Piece.Ended ps := by
  induction cs using lexemes.induct with
  | case1 =>
    rw [lexemes_nil]
    exact ⟨[], rfl, rfl, rfl, trivial⟩
  | case2 c rest ih =>
    obtain ⟨ps, htokens, hchars, hmarks, hended⟩ := ih
    obtain ⟨p, htoken, hpchars, hpmarks, hend⟩ := reads_lexeme c rest
    refine ⟨p :: ps, ?_, ?_, ?_, ?_, hended⟩
    · rw [List.map_cons, htoken, htokens, lexemes_cons]
    · rw [List.flatMap_cons, hchars, hpchars]
    · rw [List.flatMap_cons, hmarks, hpmarks]
    · rw [hchars]
      exact hend

/-- A template that is scanned falls into text and placeholders, and nothing of it is lost.  No text
is empty and no two are neighbours.  A placeholder is a sign and a name behind it that goes on as far
as it can.  The signs that open one are those which are read as text, after all the characters in
front of them, which do not stand in front of their like and behind which a name starts. -/
theorem scan_pieces (template : String) :
    ∃ pieces : List Piece,
      pieces.map Piece.token = scan template ∧
      pieces.flatMap Piece.chars = template.toList ∧
      (∀ s, .text s ∈ scan template → s ≠ "") ∧ (scan template).IsChain Token.Apart ∧
      (∀ front sign name back, pieces = front ++ .placeholder sign name :: back →
        isSign sign = true ∧ IsName name ∧
          ∀ c ∈ (back.flatMap Piece.chars).head?, isNamePart c = false) ∧
      ∀ i c, template.toList[i]? = some c →
        ((∃ front sign name back, pieces = front ++ .placeholder sign name :: back ∧
            (front.flatMap Piece.chars).length = i) ↔
          isSign c = true ∧ ((template.toList.take i).foldl State.next .text).meets c = .text ∧
            template.toList[i + 1]? ≠ some c ∧
            ∃ d, template.toList[i + 1]? = some d ∧ isNameStart d = true) := by
  obtain ⟨ps, htokens, hchars, hmarks, hended⟩ := exists_pieces_lexemes template.toList
  obtain ⟨pieces, hscan, hsame, hmarked, hkept⟩ := Piece.exists_compact ps
  rw [htokens] at hscan
  rw [hchars] at hsame
  rw [hmarks] at hmarked
  refine ⟨pieces, hscan, hsame, ?_, Token.apart_compact _, ?_, ?_⟩
  · intro s hs
    exact Token.ne_empty_of_mem_compact hs
  · intro front sign name back hsplit
    have hend := hkept hended
    rw [hsplit] at hend
    exact hend.endsBefore
  · intro i c hc
    rw [← Piece.getElem?_marks, hmarked, State.getElem?_marks, hc]
    simp only [Option.map_some, Option.some.injEq, State.opens, Bool.and_eq_true,
      decide_eq_true_eq, Option.any_eq_true]
    constructor
    · rintro ⟨⟨hmeets, hsign⟩, d, hd, hstart⟩
      refine ⟨hsign, hmeets, ?_, d, hd, hstart⟩
      intro hpair
      rw [hpair] at hd
      obtain rfl : c = d := by simpa using hd
      rw [isNameStart_of_isSign hsign] at hstart
      cases hstart
    · rintro ⟨hsign, hmeets, -, d, hd, hstart⟩
      exact ⟨⟨hmeets, hsign⟩, d, hd, hstart⟩

/-- Three signs, two different ones, and a literal that is not closed. -/
example : scan ":::x @:y '::z" =
    [.text "::", .param "x", .text " @", .param "y", .text " '::z"] := by
  decide +kernel

end Template

end BoundSql
