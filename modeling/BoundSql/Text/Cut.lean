import BoundSql.Text.Blank

/-!
# Cutting a text at a byte count

Lengths are counted in bytes of UTF-8 and a text is only ever cut between two characters.
`takeBytes` is the longest start of a text that fits a budget of bytes; `floorBoundary` is its
length, the greatest character boundary not beyond an index.
-/

namespace BoundSql.Text

/-- The longest start of the characters that takes at most `budget` bytes. -/
def takeBytes : Nat → List Char → List Char
  | _, [] => []
  | budget, c :: cs =>
    if c.utf8Size ≤ budget then c :: takeBytes (budget - c.utf8Size) cs else []

/-- The number of bytes the characters take. -/
def byteCount : List Char → Nat
  | [] => 0
  | c :: cs => c.utf8Size + byteCount cs

/-- The greatest character boundary of the text that is at most `index`. -/
def floorBoundary (s : String) (index : Nat) : Nat := byteCount (takeBytes index s.toList)

/-- Bytes of a statement that an error text quotes at most. -/
def quotedBytes : Nat := 497

/-- The text as an error quotes it: at most `quotedBytes` bytes, the blanks at the end of what
is kept cut off, with three dots where something is missing. -/
def abbreviate (s : String) : String :=
  trimEnd (String.ofList (takeBytes quotedBytes s.toList))
    ++ if byteCount s.toList > quotedBytes then "..." else ""

/-- What is kept fits the budget. -/
theorem byteCount_takeBytes_le (budget : Nat) (cs : List Char) :
    byteCount (takeBytes budget cs) ≤ budget := by
  induction cs generalizing budget with
  | nil => simp [takeBytes, byteCount]
  | cons c cs ih =>
    simp only [takeBytes]
    split
    · have := ih (budget - c.utf8Size)
      simp only [byteCount]
      omega
    · simp [byteCount]

/-- What is kept is a start of the text. -/
theorem takeBytes_isPrefix (budget : Nat) (cs : List Char) : takeBytes budget cs <+: cs := by
  induction cs generalizing budget with
  | nil => simp [takeBytes]
  | cons c cs ih =>
    simp only [takeBytes]
    split
    · exact (List.cons_prefix_cons).2 ⟨rfl, ih _⟩
    · exact List.nil_prefix

end BoundSql.Text
