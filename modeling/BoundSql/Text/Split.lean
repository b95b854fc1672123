/-!
# Finding and splitting

Searching a text for another one, on lists of characters: what stands before and after the first
occurrence, the pieces between the occurrences, and how many there are.
-/

namespace BoundSql.Text

/-- What remains of `cs` after `pattern`, if `cs` starts with it. -/
def dropLead? : List Char → List Char → Option (List Char)
  | [], cs => some cs
  | _ :: _, [] => none
  | p :: ps, c :: cs => if p = c then dropLead? ps cs else none

/-- The characters before and after the first occurrence of the pattern. -/
def splitFirst? (pattern : List Char) : List Char → Option (List Char × List Char)
  | [] => if pattern = [] then some ([], []) else none
  | c :: cs =>
    match dropLead? pattern (c :: cs) with
    | some rest => some ([], rest)
    | none => (splitFirst? pattern cs).map fun (before, after) => (c :: before, after)

/-- Puts a character before the first piece. -/
def consPiece (c : Char) : List (List Char) → List (List Char)
  | [] => [[c]]
  | piece :: pieces => (c :: piece) :: pieces

/-- The pieces between the occurrences of the pattern, where `skip` characters still belong to the
occurrence found last. -/
def piecesFrom (pattern : List Char) : Nat → List Char → List (List Char)
  | _, [] => [[]]
  | skip + 1, _ :: cs => piecesFrom pattern skip cs
  | 0, c :: cs =>
    if (dropLead? pattern (c :: cs)).isSome then [] :: piecesFrom pattern (pattern.length - 1) cs
    else consPiece c (piecesFrom pattern 0 cs)

/-- The pieces between the occurrences of a pattern that is not empty, read from the left without
overlap. -/
def splitAt (pattern : List Char) (cs : List Char) : List (List Char) := piecesFrom pattern 0 cs

/-- Whether the pattern occurs in the text. -/
def contains (s pattern : String) : Bool := (splitFirst? pattern.toList s.toList).isSome

/-- How often the pattern occurs in the text, counted from the left without overlap. -/
def occurrences (s pattern : String) : Nat := (splitAt pattern.toList s.toList).length - 1

/-- Whether the text starts with the pattern. -/
def startsWith (s pattern : String) : Bool := (dropLead? pattern.toList s.toList).isSome

end BoundSql.Text
