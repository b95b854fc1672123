/-!
# Blank space

Which characters count as blank, and cutting them off the ends of a text.  The class is the
Unicode property `White_Space`: twenty-five characters, the no-break space and the ideographic
space among them, the zero-width space not.
-/

namespace BoundSql.Text

/-- The Unicode property `White_Space`. -/
def isBlank (c : Char) : Bool :=
  let n := c.toNat
  (9 ≤ n && n ≤ 13) || n == 0x20 || n == 0x85 || n == 0xA0 || n == 0x1680
    || (0x2000 ≤ n && n ≤ 0x200A) || n == 0x2028 || n == 0x2029 || n == 0x202F || n == 0x205F
    || n == 0x3000

/-- The characters without the blanks at their end. -/
def dropBlankEnd (cs : List Char) : List Char :=
  (cs.reverse.dropWhile isBlank).reverse

/-- The text without the blanks it starts with. -/
def trimStart (s : String) : String := String.ofList (s.toList.dropWhile isBlank)

/-- The text without the blanks it ends with. -/
def trimEnd (s : String) : String := String.ofList (dropBlankEnd s.toList)

/-- The text without the blanks around it. -/
def trim (s : String) : String := trimEnd (trimStart s)

/-- Whether the text holds nothing but blanks. -/
def allBlank (s : String) : Bool := s.toList.all isBlank

/-- Every blank that core knows is one here. -/
theorem isBlank_of_isWhitespace {c : Char} (h : c.isWhitespace = true) : isBlank c = true := by
  simp only [Char.isWhitespace, Bool.or_eq_true, decide_eq_true_eq] at h
  rcases h with ((rfl | rfl) | rfl) | rfl <;> rfl

end BoundSql.Text
