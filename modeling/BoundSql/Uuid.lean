import BoundSql.Text.Quoted

/-!
# Universally unique identifiers

A uuid is 128 bits.  It is written as thirty-two lower case hexadecimal digits in groups of 8, 4,
4, 4 and 12, and read from that form, from the digits alone, and from the form in braces or after
`urn:uuid:`.  Letters are read in either case.
-/

namespace BoundSql

/-- An identifier of 128 bits. -/
structure Uuid where
  bits : BitVec 128
  deriving DecidableEq

namespace Uuid

/-- The lengths of the groups of digits. -/
def groups : List Nat := [8, 4, 4, 4, 12]

/-- Cuts the characters into groups with a hyphen between each two. -/
def hyphenate : List Nat → List Char → List Char
  | [], _ => []
  | [n], cs => cs.take n
  | n :: more, cs => cs.take n ++ '-' :: hyphenate more (cs.drop n)

/-- The characters of the groups, if hyphens stand between them and only there. -/
def unhyphenate? : List Nat → List Char → Option (List Char)
  | [], cs => if cs = [] then some [] else none
  | [n], cs => if cs.length = n then some cs else none
  | n :: more, cs =>
    match cs.drop n with
    | '-' :: rest => (unhyphenate? more rest).map (cs.take n ++ ·)
    | _ => none

/-- The text of a uuid. -/
def text (u : Uuid) : String :=
  String.ofList (hyphenate groups (Text.hexPadded 32 u.bits.toNat))

/-- The number that hexadecimal digits write after the number `n`. -/
def readHex? (n : Nat) : List Char → Option Nat
  | [] => some n
  | c :: cs => (Text.hexValue? c).bind fun d => readHex? (16 * n + d) cs

/-- The uuid of thirty-two digits. -/
def ofDigits? (cs : List Char) : Option Uuid :=
  if cs.length = 32 then (readHex? 0 cs).map fun n => ⟨BitVec.ofNat 128 n⟩ else none

/-- The uuid of digits in groups. -/
def ofGroups? (cs : List Char) : Option Uuid := (unhyphenate? groups cs).bind ofDigits?

/-- What the name of a uuid among other resource names starts with. -/
def lead : List Char := "urn:uuid:".toList

/-- The uuid a text writes. -/
def read? (s : String) : Option Uuid :=
  match s.toList with
  | '\x7b' :: cs => if cs.getLast? = some '\x7d' then ofGroups? cs.dropLast else none
  | cs =>
    if (cs.take lead.length).map Char.toLower = lead then ofGroups? (cs.drop lead.length)
    else if cs.length = 32 then ofDigits? cs
    else ofGroups? cs

end Uuid

end BoundSql
