import BoundSql.Text.Cluster
import BoundSql.Text.LetterCase

/-!
# Words of a name

Splitting a name such as `HTTPServer2Go` into its words and writing them in snake case.  A word
ends at an underscore, between a lower case letter and a capital, before the last capital of a run
that a lower case letter follows, and between a letter and a digit.  A letter counts with its
marks: it is a capital when upper case leaves all of it as it is and lower case does not, and a
mark makes a digit or an underscore none.
-/

namespace BoundSql.Text

/-- Whether a cluster is a capital. -/
def isUpper (cs : List Char) : Bool := cs.any changesInLower && !cs.any changesInUpper

/-- Whether a cluster is a lower case letter. -/
def isLower (cs : List Char) : Bool := cs.any changesInUpper && !cs.any changesInLower

/-- Whether a cluster is a digit. -/
def isDigit (cs : List Char) : Bool := cs.all Char.isDigit

/-- Whether a word ends between `a` and `b`, where `after` is the cluster that follows `b`. -/
def wordEnds (a b : List Char) (after : Option (List Char)) : Bool :=
  (isLower a && isUpper b)
    || (isUpper a && isUpper b && after.any isLower)
    || ((isLower a || isUpper a) && isDigit b)
    || (isDigit a && (isLower b || isUpper b))

/-- The words of clusters, of which `word` holds what was read last. -/
def wordsFrom (word : List Char) : List (List Char) → List (List Char)
  | [] => [word]
  | c :: cs =>
    if c = ['_'] then word :: wordsFrom [] cs
    else match cs with
      | [] => wordsFrom (word ++ c) cs
      | next :: _ =>
        if wordEnds c next (cs.drop 1).head? then (word ++ c) :: wordsFrom [] cs
        else wordsFrom (word ++ c) cs

/-- The words of a name, without the empty ones. -/
def words (name : String) : List String :=
  ((wordsFrom [] (clusters name.toList)).filter (· ≠ [])).map String.ofList

/-- The words of a name in lower case, joined by underscores. -/
def snakeCase (name : String) : String :=
  "_".intercalate ((words name).map toLower)

end BoundSql.Text
