import BoundSql.Text.Blank

/-!
# Tokens of a declaration

The names and signs of a type or a path, without the blanks and comments between them.  What a
literal says does not matter here, only where it ends: a bracket in it is none.
-/

namespace BoundSql.Declaration

/-- A name, a sign, or something that is neither. -/
inductive Token where
  /-- An identifier as it is written, with the mark `r#` if it has one. -/
  | name (text : String)
  | sign (c : Char)
  /-- A literal or a lifetime. -/
  | other
  deriving DecidableEq, Repr

namespace Token

/-- The blanks between tokens: white space and the marks of writing direction. -/
def isBlank (c : Char) : Bool := Text.isBlank c || c.toNat == 0x200E || c.toNat == 0x200F

def isNameStart (c : Char) : Bool := c.isAlpha || c == '_' || c.toNat > 127

def isNamePart (c : Char) : Bool := !isBlank c && (isNameStart c || c.isDigit)

/-! ### Lengths -/

/-- How many characters there are up to the end of the line. -/
def lineLength (cs : List Char) : Nat := (cs.takeWhile (· != '\n')).length

/-- How many characters a comment goes on for, `depth` comments around it included. -/
def commentLength (depth : Nat) : List Char → Nat
  | [] => 0
  | '/' :: '*' :: cs => 2 + commentLength (depth + 1) cs
  | '*' :: '/' :: cs =>
    match depth with
    | 0 => 2
    | depth + 1 => 2 + commentLength depth cs
  | _ :: cs => 1 + commentLength depth cs

/-- How many characters there are up to the closing quote and with it. -/
def quoteLength (q : Char) : List Char → Nat
  | [] => 0
  | '\\' :: _ :: cs => 2 + quoteLength q cs
  | c :: cs => if c = q then 1 else 1 + quoteLength q cs

/-- How many characters there are up to a double quote with `hashes` hash signs after it, and
with them. -/
def rawLength (hashes : Nat) : List Char → Nat
  | [] => 0
  | c :: cs =>
    if c = '"' && cs.take hashes == List.replicate hashes '#' then 1 + hashes
    else 1 + rawLength hashes cs

/-- How many characters the name goes on for. -/
def nameLength (cs : List Char) : Nat := (cs.takeWhile isNamePart).length

/-! ### Lexemes -/

/-- What an apostrophe opens: a character up to the closing apostrophe, or a lifetime. -/
def afterApostrophe (cs : List Char) : Nat :=
  match cs with
  | '\\' :: _ => quoteLength '\'' cs
  | _ :: '\'' :: _ => 2
  | _ => nameLength cs

/-- What a double quote opens after hash signs, where no escapes are read, and how many characters
that is. -/
def rawLiteral? (cs : List Char) : Option Nat :=
  let hashes := (cs.takeWhile (· == '#')).length
  match cs.drop hashes with
  | '"' :: rest => some (hashes + 1 + rawLength hashes rest)
  | _ => none

/-- What the name `word` is, given what follows it: the lead of a literal, the mark of a name, or
a name.  With it the count of the characters that belong to it. -/
def ofWord (word : String) (cs : List Char) : Token × Nat :=
  match word, cs with
  | "b", '\'' :: rest => (other, 1 + afterApostrophe rest)
  | "b", '"' :: rest => (other, 1 + quoteLength '"' rest)
  | "c", '"' :: rest => (other, 1 + quoteLength '"' rest)
  | _, _ =>
    match if word = "r" ∨ word = "br" ∨ word = "cr" then rawLiteral? cs else none with
    | some n => (other, n)
    | none =>
      match word, cs with
      | "r", '#' :: rest =>
        let n := nameLength rest
        (name ("r#" ++ String.ofList (rest.take n)), 1 + n)
      | _, _ => (name word, 0)

/-- The token that starts with `c`, if it is one, and how many characters after `c` belong to
it. -/
def lexeme (c : Char) (cs : List Char) : Option Token × Nat :=
  if isBlank c then (none, 0)
  else if isNameStart c then
    let n := nameLength cs
    let (token, more) := ofWord (String.ofList (c :: cs.take n)) (cs.drop n)
    (some token, n + more)
  else if c.isDigit then (some other, nameLength cs)
  else if c = '"' then (some other, quoteLength '"' cs)
  else if c = '\'' then (some other, afterApostrophe cs)
  else
    match c, cs with
    | '/', '/' :: _ => (none, lineLength cs)
    | '/', '*' :: rest => (none, 1 + commentLength 0 rest)
    | _, _ => (some (sign c), 0)

/-- The tokens that characters make up. -/
def scan : List Char → List Token
  | [] => []
  | c :: cs => (lexeme c cs).1.toList ++ scan (cs.drop (lexeme c cs).2)
termination_by cs => cs.length
decreasing_by
  simp only [List.length_drop, List.length_cons]
  omega

/-- The token as it is written. -/
def text : Token → String
  | name s => s
  | sign c => String.singleton c
  | other => ""

end Token

/-- A path without the blanks in it. -/
def pathText (path : String) : String :=
  String.join ((Token.scan path.toList).map Token.text)

end BoundSql.Declaration
