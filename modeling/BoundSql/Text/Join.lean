/-!
# Joining texts

`separated` writes items with a separator between them.  The separator goes between two items
only when the first of them wrote something, so an empty item takes the separator after it along.
-/

namespace BoundSql.Text

/-- The items in order, with the separator after each one that is neither empty nor last. -/
def separated (separator : String) : List String → String
  | [] => ""
  | [item] => item
  | item :: next :: rest =>
    item ++ (if item = "" then "" else separator) ++ separated separator (next :: rest)

end BoundSql.Text
