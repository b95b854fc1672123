/-!
# Tokens

Pieces of SQL text that await rendering.  A list of tokens is compact when no text in it is empty
and no two texts are neighbours; `compact` brings any list to that form and `join` keeps it when
two compact lists are put together.
-/

namespace BoundSql

/-- A piece of SQL text. -/
inductive Token where
  /-- Text that is written as it stands. -/
  | text (s : String)
  /-- The marker of a parameter. -/
  | param (name : String)
  /-- The place that the marker of a wrapped value takes. -/
  | slot
  /-- The opening of a filter clause. -/
  | sentinel
  deriving DecidableEq, Repr

namespace Token

/-- The name of a parameter marker. -/
def paramName? : Token → Option String
  | param name => some name
  | _ => none

/-- The names of the parameter markers, in order. -/
def paramNames (ts : List Token) : List String := ts.filterMap paramName?

/-- Puts a text before compact tokens. -/
def consText (s : String) (ts : List Token) : List Token :=
  if s = "" then ts
  else match ts with
    | text u :: rest => text (s ++ u) :: rest
    | ts => text s :: ts

/-- Merges neighbouring texts and drops empty ones. -/
def compact : List Token → List Token
  | [] => []
  | text s :: ts => consText s (compact ts)
  | t :: ts => t :: compact ts

/-- Puts compact tokens after compact tokens: where both meet in texts, these merge. -/
def join : List Token → List Token → List Token
  | [], us => us
  | [text s], us => consText s us
  | t :: ts, us => t :: join ts us

/-- Puts arbitrary tokens after compact tokens. -/
def append (ts us : List Token) : List Token := join ts (compact us)

end Token

/-- The elements in order, each only where it appears first. -/
def distinct : List String → List String
  | [] => []
  | x :: xs => x :: (distinct xs).filter (· ≠ x)

end BoundSql
