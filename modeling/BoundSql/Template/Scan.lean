import BoundSql.Template.Token

/-!
# Scanning templates

A template is SQL text in which `:name` and `@name` are placeholders.  Scanning cuts it into
lexemes from the left: a literal or quoted identifier up to its closing quote, a doubled sign with
the name after it (a cast or a variable of the server), a placeholder, or plain text.  Nothing is
lost: each lexeme and what follows it make up the template.
-/

namespace BoundSql

namespace Template

/-- The characters that open and close a literal or a quoted identifier. -/
def isQuote (c : Char) : Bool := c == '\'' || c == '"' || c == '\x60'

/-- The characters that open a placeholder. -/
def isSign (c : Char) : Bool := c == ':' || c == '@'

/-- The characters a name may start with: ASCII letters and the underscore. -/
def isNameStart (c : Char) : Bool := c.isAlpha || c == '_'

/-- The characters a name may go on with: ASCII letters, digits and the underscore. -/
def isNamePart (c : Char) : Bool := c.isAlphanum || c == '_'

/-- The characters that open no lexeme of their own. -/
def isPlain (c : Char) : Bool := !isQuote c && !isSign c

/-- A text of characters. -/
def textOf (cs : List Char) : Token := .text (String.ofList cs)

/-- The lexeme that the quote `q` opens, and what follows it.  Without a closing quote it goes on
to the end. -/
def literal (q : Char) (cs : List Char) : Token × List Char :=
  let body := cs.takeWhile (· != q)
  match cs.dropWhile (· != q) with
  | [] => (textOf (q :: body), [])
  | _ :: rest => (textOf (q :: body ++ [q]), rest)

/-- The lexeme that the sign `c` opens, and what follows it. -/
def signed (c : Char) (cs : List Char) : Token × List Char :=
  match cs with
  | [] => (textOf [c], [])
  | d :: rest =>
    if d = c then (textOf (c :: c :: rest.takeWhile isNamePart), rest.dropWhile isNamePart)
    else if isNameStart d then
      (.param (String.ofList (cs.takeWhile isNamePart)), cs.dropWhile isNamePart)
    else (textOf [c], cs)

/-- The lexeme that starts with `c`, and what follows it. -/
def lexeme (c : Char) (cs : List Char) : Token × List Char :=
  if isQuote c then literal c cs
  else if isSign c then signed c cs
  else (textOf (c :: cs.takeWhile isPlain), cs.dropWhile isPlain)

theorem length_dropWhile_le (p : Char → Bool) (cs : List Char) :
    (cs.dropWhile p).length ≤ cs.length :=
  (List.dropWhile_sublist p).length_le

theorem literal_rest_length (q : Char) (cs : List Char) :
    (literal q cs).2.length ≤ cs.length := by
  have h := length_dropWhile_le (· != q) cs
  unfold literal
  cases hd : cs.dropWhile (· != q) with
  | nil => simp
  | cons d rest =>
    rw [hd] at h
    simp only [List.length_cons] at h
    simp only
    omega

theorem signed_rest_length (c : Char) (cs : List Char) : (signed c cs).2.length ≤ cs.length := by
  cases cs with
  | nil => simp [signed]
  | cons d rest =>
    simp only [signed]
    split
    · have := length_dropWhile_le isNamePart rest
      simp only [List.length_cons]
      omega
    · split
      · exact length_dropWhile_le isNamePart _
      · exact Nat.le_refl _

/-- A lexeme takes up its first character at least. -/
theorem lexeme_rest_length (c : Char) (cs : List Char) : (lexeme c cs).2.length ≤ cs.length := by
  unfold lexeme
  split
  · exact literal_rest_length c cs
  · split
    · exact signed_rest_length c cs
    · exact length_dropWhile_le isPlain cs

/-- The lexemes of the characters, from the left. -/
def lexemes (cs : List Char) : List Token :=
  match cs with
  | [] => []
  | c :: rest => (lexeme c rest).1 :: lexemes (lexeme c rest).2
termination_by cs.length
decreasing_by
  have := lexeme_rest_length c rest
  simp only [List.length_cons]
  omega

/-- The text and the placeholders of a template. -/
def scan (template : String) : List Token := Token.compact (lexemes template.toList)

/-- The names of the placeholders, each once and in order of first appearance. -/
def placeholders (tokens : List Token) : List String := distinct (Token.paramNames tokens)

end Template

end BoundSql
