import BoundSql.Text.Mark
import BoundSql.Text.Unassigned

/-!
# Characters that a quoted text writes as escapes

Beside the space, these characters have no picture of their own: controls, format characters,
the other separators, private use, unassigned code points, and the marks that combine with the
character before them.  The halfwidth sound marks are letters to the eye and are shown.
-/

namespace BoundSql.Text

/-- Whether the code point is a control character. -/
def isControl (n : Nat) : Bool := n < 0x20 || (0x7F ≤ n && n < 0xA0)

/-- The spaces and the separators of lines and paragraphs, beside the space itself. -/
def otherSpaces : List (Nat × Nat) := [
  (0xA0, 0xA0), (0x1680, 0x1680), (0x2000, 0x200A), (0x2028, 0x2029), (0x202F, 0x202F),
  (0x205F, 0x205F), (0x3000, 0x3000)]

/-- Code points left to private agreement. -/
def privateUse : List (Nat × Nat) := [(0xE000, 0xF8FF), (0xF0000, 0xFFFFD), (0x100000, 0x10FFFD)]

/-- Whether a code point has no picture. -/
def hasNoPicture (n : Nat) : Bool :=
  isControl n || isFormat n || inRanges otherSpaces n || inRanges privateUse n || isUnassigned n

/-- Whether the code point is one of the two halfwidth sound marks. -/
def isHalfwidthSoundMark (n : Nat) : Bool := n == 0xFF9E || n == 0xFF9F

/-- Whether the character has no picture of its own. -/
def isHidden (c : Char) : Bool :=
  let n := c.toNat
  hasNoPicture n || (isExtender n && !isHalfwidthSoundMark n)

end BoundSql.Text
