import BoundSql.Declaration.Token

/-!
# Types as text

What a declaration needs to know of the type of a field: the name at the end of its path, if it is
a plain path such as `std::option::Option<String>`.
-/

namespace BoundSql.Declaration

/-- Where in a path reading stands. -/
inductive Place where
  /-- Before a name. -/
  | name
  /-- Behind the name `n`. -/
  | named (n : String)
  /-- In the arguments of `n` between angle brackets, with `angles` more of them open and
  `groups` other brackets. -/
  | arguments (n : String) (angles groups : Nat)
  /-- In the parameters of `n` between parentheses, with `groups` more brackets open. -/
  | parameters (n : String) (groups : Nat)
  /-- Behind the arguments of `n`. -/
  | closed (n : String)

namespace Place

/-- Names that begin a type which is no path. -/
def isTypeWord (n : String) : Bool := n == "dyn" || n == "impl" || n == "for"

def isOpening (t : Token) : Bool := t == .sign '(' || t == .sign '[' || t == .sign '\x7b'

def isClosing (t : Token) : Bool := t == .sign ')' || t == .sign ']' || t == .sign '\x7d'

/-- How many brackets are open after the token. -/
def nest (t : Token) (groups : Nat) : Nat :=
  if isOpening t then groups + 1 else if isClosing t then groups - 1 else groups

/-- The last name of a path, read on from a place in it.  What stands in brackets of other kinds
says nothing about the angle brackets, and the head of an arrow closes none. -/
def lastName? : Place → List Token → Option String
  | name, .name n :: ts => if isTypeWord n then none else lastName? (named n) ts
  | name, _ => none
  | named n, [] => some n
  | named n, .sign ':' :: .sign ':' :: .sign '<' :: ts => lastName? (arguments n 0 0) ts
  | named n, .sign ':' :: .sign ':' :: .sign '(' :: ts => lastName? (parameters n 0) ts
  | named _, .sign ':' :: .sign ':' :: ts => lastName? name ts
  | named n, .sign '<' :: ts => lastName? (arguments n 0 0) ts
  | named n, .sign '(' :: ts => lastName? (parameters n 0) ts
  | named _, _ => none
  | arguments _ _ _, [] => none
  | arguments n angles 0, .sign '-' :: .sign '>' :: ts => lastName? (arguments n angles 0) ts
  | arguments n angles 0, .sign '<' :: ts => lastName? (arguments n (angles + 1) 0) ts
  | arguments n 0 0, .sign '>' :: ts => lastName? (closed n) ts
  | arguments n (angles + 1) 0, .sign '>' :: ts => lastName? (arguments n angles 0) ts
  | arguments n angles groups, t :: ts => lastName? (arguments n angles (nest t groups)) ts
  | parameters _ _, [] => none
  | parameters n groups, t :: ts =>
    if groups = 0 && isClosing t then lastName? (closed n) ts
    else lastName? (parameters n (nest t groups)) ts
  | closed n, [] => some n
  | closed _, .sign ':' :: .sign ':' :: ts => lastName? name ts
  | closed n, .sign '-' :: .sign '>' :: _ => some n
  | closed _, _ => none

end Place

/-- The last name of the path that a type is, if it is a plain path. -/
def pathEnd? (type : String) : Option String :=
  match Token.scan type.toList with
  | .sign ':' :: .sign ':' :: ts => Place.lastName? .name ts
  | ts => Place.lastName? .name ts

/-- Whether a type is an option by its name. -/
def isOptionType (type : String) : Bool := pathEnd? type == some "Option"

/-- Whether a text between brackets names generic parameters. -/
def hasParameters (generics : String) : Bool :=
  match Token.scan generics.toList with
  | .sign '<' :: t :: _ => t != .sign '>'
  | _ => false

end BoundSql.Declaration
