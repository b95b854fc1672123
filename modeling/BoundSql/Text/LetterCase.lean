import BoundSql.Text.Mark

/-!
# Upper and lower case

The case pairs of Unicode 17 as runs: `(first, last, step, shift)` says that every `step`-th code
point from `first` to `last` is a letter whose lower case lies `shift` further on.  What changes
in upper case is the lower case of a pair, a letter whose upper case is no single letter of its
own, or a title-case letter.  A capital sigma has a second lower case for the end of a word, which
makes the lower case of a text depend on the letters around it.
-/

namespace BoundSql.Text

/-- Letters with a lower case of their own. -/
def caseRuns : List (Nat × Nat × Nat × Int) := [
  (0x41, 0x5A, 1, 32), (0xC0, 0xD6, 1, 32), (0xD8, 0xDE, 1, 32), (0x100, 0x12E, 2, 1),
  (0x132, 0x136, 2, 1), (0x139, 0x147, 2, 1), (0x14A, 0x176, 2, 1), (0x178, 0x178, 1, -121),
  (0x179, 0x17D, 2, 1), (0x181, 0x181, 1, 210), (0x182, 0x184, 2, 1), (0x186, 0x186, 1, 206),
  (0x187, 0x187, 1, 1), (0x189, 0x18A, 1, 205), (0x18B, 0x18B, 1, 1), (0x18E, 0x18E, 1, 79),
  (0x18F, 0x18F, 1, 202), (0x190, 0x190, 1, 203), (0x191, 0x191, 1, 1), (0x193, 0x193, 1, 205),
  (0x194, 0x194, 1, 207), (0x196, 0x196, 1, 211), (0x197, 0x197, 1, 209), (0x198, 0x198, 1, 1),
  (0x19C, 0x19C, 1, 211), (0x19D, 0x19D, 1, 213), (0x19F, 0x19F, 1, 214), (0x1A0, 0x1A4, 2, 1),
  (0x1A6, 0x1A6, 1, 218), (0x1A7, 0x1A7, 1, 1), (0x1A9, 0x1A9, 1, 218), (0x1AC, 0x1AC, 1, 1),
  (0x1AE, 0x1AE, 1, 218), (0x1AF, 0x1AF, 1, 1), (0x1B1, 0x1B2, 1, 217), (0x1B3, 0x1B5, 2, 1),
  (0x1B7, 0x1B7, 1, 219), (0x1B8, 0x1B8, 1, 1), (0x1BC, 0x1BC, 1, 1), (0x1C4, 0x1C4, 1, 2),
  (0x1C5, 0x1C5, 1, 1), (0x1C7, 0x1C7, 1, 2), (0x1C8, 0x1C8, 1, 1), (0x1CA, 0x1CA, 1, 2),
  (0x1CB, 0x1DB, 2, 1), (0x1DE, 0x1EE, 2, 1), (0x1F1, 0x1F1, 1, 2), (0x1F2, 0x1F4, 2, 1),
  (0x1F6, 0x1F6, 1, -97), (0x1F7, 0x1F7, 1, -56), (0x1F8, 0x21E, 2, 1), (0x220, 0x220, 1, -130),
  (0x222, 0x232, 2, 1), (0x23A, 0x23A, 1, 10795), (0x23B, 0x23B, 1, 1), (0x23D, 0x23D, 1, -163),
  (0x23E, 0x23E, 1, 10792), (0x241, 0x241, 1, 1), (0x243, 0x243, 1, -195),
  (0x244, 0x244, 1, 69), (0x245, 0x245, 1, 71), (0x246, 0x24E, 2, 1), (0x370, 0x372, 2, 1),
  (0x376, 0x376, 1, 1), (0x37F, 0x37F, 1, 116), (0x386, 0x386, 1, 38), (0x388, 0x38A, 1, 37),
  (0x38C, 0x38C, 1, 64), (0x38E, 0x38F, 1, 63), (0x391, 0x3A1, 1, 32), (0x3A3, 0x3AB, 1, 32),
  (0x3CF, 0x3CF, 1, 8), (0x3D8, 0x3EE, 2, 1), (0x3F4, 0x3F4, 1, -60), (0x3F7, 0x3F7, 1, 1),
  (0x3F9, 0x3F9, 1, -7), (0x3FA, 0x3FA, 1, 1), (0x3FD, 0x3FF, 1, -130), (0x400, 0x40F, 1, 80),
  (0x410, 0x42F, 1, 32), (0x460, 0x480, 2, 1), (0x48A, 0x4BE, 2, 1), (0x4C0, 0x4C0, 1, 15),
  (0x4C1, 0x4CD, 2, 1), (0x4D0, 0x52E, 2, 1), (0x531, 0x556, 1, 48), (0x10A0, 0x10C5, 1, 7264),
  (0x10C7, 0x10C7, 1, 7264), (0x10CD, 0x10CD, 1, 7264), (0x13A0, 0x13EF, 1, 38864),
  (0x13F0, 0x13F5, 1, 8), (0x1C89, 0x1C89, 1, 1), (0x1C90, 0x1CBA, 1, -3008),
  (0x1CBD, 0x1CBF, 1, -3008), (0x1E00, 0x1E94, 2, 1), (0x1E9E, 0x1E9E, 1, -7615),
  (0x1EA0, 0x1EFE, 2, 1), (0x1F08, 0x1F0F, 1, -8), (0x1F18, 0x1F1D, 1, -8),
  (0x1F28, 0x1F2F, 1, -8), (0x1F38, 0x1F3F, 1, -8), (0x1F48, 0x1F4D, 1, -8),
  (0x1F59, 0x1F5F, 2, -8), (0x1F68, 0x1F6F, 1, -8), (0x1F88, 0x1F8F, 1, -8),
  (0x1F98, 0x1F9F, 1, -8), (0x1FA8, 0x1FAF, 1, -8), (0x1FB8, 0x1FB9, 1, -8),
  (0x1FBA, 0x1FBB, 1, -74), (0x1FBC, 0x1FBC, 1, -9), (0x1FC8, 0x1FCB, 1, -86),
  (0x1FCC, 0x1FCC, 1, -9), (0x1FD8, 0x1FD9, 1, -8), (0x1FDA, 0x1FDB, 1, -100),
  (0x1FE8, 0x1FE9, 1, -8), (0x1FEA, 0x1FEB, 1, -112), (0x1FEC, 0x1FEC, 1, -7),
  (0x1FF8, 0x1FF9, 1, -128), (0x1FFA, 0x1FFB, 1, -126), (0x1FFC, 0x1FFC, 1, -9),
  (0x2126, 0x2126, 1, -7517), (0x212A, 0x212A, 1, -8383), (0x212B, 0x212B, 1, -8262),
  (0x2132, 0x2132, 1, 28), (0x2160, 0x216F, 1, 16), (0x2183, 0x2183, 1, 1),
  (0x24B6, 0x24CF, 1, 26), (0x2C00, 0x2C2F, 1, 48), (0x2C60, 0x2C60, 1, 1),
  (0x2C62, 0x2C62, 1, -10743), (0x2C63, 0x2C63, 1, -3814), (0x2C64, 0x2C64, 1, -10727),
  (0x2C67, 0x2C6B, 2, 1), (0x2C6D, 0x2C6D, 1, -10780), (0x2C6E, 0x2C6E, 1, -10749),
  (0x2C6F, 0x2C6F, 1, -10783), (0x2C70, 0x2C70, 1, -10782), (0x2C72, 0x2C72, 1, 1),
  (0x2C75, 0x2C75, 1, 1), (0x2C7E, 0x2C7F, 1, -10815), (0x2C80, 0x2CE2, 2, 1),
  (0x2CEB, 0x2CED, 2, 1), (0x2CF2, 0x2CF2, 1, 1), (0xA640, 0xA66C, 2, 1),
  (0xA680, 0xA69A, 2, 1), (0xA722, 0xA72E, 2, 1), (0xA732, 0xA76E, 2, 1),
  (0xA779, 0xA77B, 2, 1), (0xA77D, 0xA77D, 1, -35332), (0xA77E, 0xA786, 2, 1),
  (0xA78B, 0xA78B, 1, 1), (0xA78D, 0xA78D, 1, -42280), (0xA790, 0xA792, 2, 1),
  (0xA796, 0xA7A8, 2, 1), (0xA7AA, 0xA7AA, 1, -42308), (0xA7AB, 0xA7AB, 1, -42319),
  (0xA7AC, 0xA7AC, 1, -42315), (0xA7AD, 0xA7AD, 1, -42305), (0xA7AE, 0xA7AE, 1, -42308),
  (0xA7B0, 0xA7B0, 1, -42258), (0xA7B1, 0xA7B1, 1, -42282), (0xA7B2, 0xA7B2, 1, -42261),
  (0xA7B3, 0xA7B3, 1, 928), (0xA7B4, 0xA7C2, 2, 1), (0xA7C4, 0xA7C4, 1, -48),
  (0xA7C5, 0xA7C5, 1, -42307), (0xA7C6, 0xA7C6, 1, -35384), (0xA7C7, 0xA7C9, 2, 1),
  (0xA7CB, 0xA7CB, 1, -42343), (0xA7CC, 0xA7DA, 2, 1),
  (0xA7DC, 0xA7DC, 1, -42561), (0xA7F5, 0xA7F5, 1, 1),
  (0xFF21, 0xFF3A, 1, 32), (0x10400, 0x10427, 1, 40), (0x104B0, 0x104D3, 1, 40),
  (0x10570, 0x1057A, 1, 39), (0x1057C, 0x1058A, 1, 39), (0x1058C, 0x10592, 1, 39),
  (0x10594, 0x10595, 1, 39), (0x10C80, 0x10CB2, 1, 64), (0x10D50, 0x10D65, 1, 32),
  (0x118A0, 0x118BF, 1, 32), (0x16E40, 0x16E5F, 1, 32), (0x16EA0, 0x16EB8, 1, 27),
  (0x1E900, 0x1E921, 1, 34)]

/-- Lower case letters that are not the lower case of a single letter. -/
def unpairedLower : List (Nat × Nat) := [
  (0xB5, 0xB5), (0x131, 0x131), (0x149, 0x149), (0x17F, 0x17F), (0x1F0, 0x1F0), (0x345, 0x345),
  (0x390, 0x390), (0x3B0, 0x3B0), (0x3C2, 0x3C2), (0x3D0, 0x3D1), (0x3D5, 0x3D6),
  (0x3F0, 0x3F1), (0x3F5, 0x3F5), (0x587, 0x587), (0x1C80, 0x1C88), (0x1E96, 0x1E9B),
  (0x1F50, 0x1F50), (0x1F52, 0x1F52), (0x1F54, 0x1F54), (0x1F56, 0x1F56), (0x1FB2, 0x1FB2),
  (0x1FB4, 0x1FB4), (0x1FB6, 0x1FB7), (0x1FBE, 0x1FBE), (0x1FC2, 0x1FC2), (0x1FC4, 0x1FC4),
  (0x1FC6, 0x1FC7), (0x1FD2, 0x1FD3), (0x1FD6, 0x1FD7), (0x1FE2, 0x1FE4), (0x1FE6, 0x1FE7),
  (0x1FF2, 0x1FF2), (0x1FF4, 0x1FF4), (0x1FF6, 0x1FF7), (0xFB00, 0xFB06), (0xFB13, 0xFB17)]

/-- Letters between the cases, such as the digraphs that start with a capital. -/
def titleCase : List (Nat × Nat) := [
  (0x1C5, 0x1C5), (0x1C8, 0x1C8), (0x1CB, 0x1CB), (0x1F2, 0x1F2), (0x1F88, 0x1F8F),
  (0x1F98, 0x1F9F), (0x1FA8, 0x1FAF), (0x1FBC, 0x1FBC), (0x1FCC, 0x1FCC), (0x1FFC, 0x1FFC)]

/-- Letters that have a case and change in neither. -/
def unchangingCased : List (Nat × Nat) := [
  (0xAA, 0xAA), (0xBA, 0xBA), (0x138, 0x138), (0x18D, 0x18D), (0x1AA, 0x1AB), (0x1BA, 0x1BA),
  (0x1BE, 0x1BE), (0x221, 0x221), (0x234, 0x239), (0x255, 0x255), (0x258, 0x258), (0x25A, 0x25A),
  (0x25D, 0x25F), (0x262, 0x262), (0x267, 0x267), (0x26D, 0x26E), (0x270, 0x270), (0x273, 0x274),
  (0x276, 0x27C), (0x27E, 0x27F), (0x281, 0x281), (0x284, 0x286), (0x28D, 0x291), (0x293, 0x293),
  (0x296, 0x29C), (0x29F, 0x2B8), (0x2C0, 0x2C1), (0x2E0, 0x2E4), (0x37A, 0x37A), (0x3D2, 0x3D4),
  (0x3FC, 0x3FC), (0x560, 0x560), (0x588, 0x588), (0x10FC, 0x10FC), (0x1D00, 0x1D78),
  (0x1D7A, 0x1D7C), (0x1D7E, 0x1D8D), (0x1D8F, 0x1DBF), (0x1E9C, 0x1E9D), (0x1E9F, 0x1E9F),
  (0x2071, 0x2071), (0x207F, 0x207F), (0x2090, 0x209C), (0x2102, 0x2102), (0x2107, 0x2107),
  (0x210A, 0x2113), (0x2115, 0x2115), (0x2119, 0x211D), (0x2124, 0x2124), (0x2128, 0x2128),
  (0x212C, 0x212D), (0x212F, 0x2131), (0x2133, 0x2134), (0x2139, 0x2139), (0x213C, 0x213F),
  (0x2145, 0x2149), (0x2C71, 0x2C71), (0x2C74, 0x2C74), (0x2C77, 0x2C7D), (0x2CE4, 0x2CE4),
  (0xA69C, 0xA69D), (0xA730, 0xA731), (0xA770, 0xA778), (0xA78E, 0xA78E), (0xA795, 0xA795),
  (0xA7AF, 0xA7AF), (0xA7F1, 0xA7F4), (0xA7F8, 0xA7FA), (0xAB30, 0xAB52), (0xAB54, 0xAB5A),
  (0xAB5C, 0xAB69), (0x10780, 0x10780), (0x10783, 0x10785), (0x10787, 0x107B0), (0x107B2, 0x107BA),
  (0x1D400, 0x1D454), (0x1D456, 0x1D49C), (0x1D49E, 0x1D49F), (0x1D4A2, 0x1D4A2),
  (0x1D4A5, 0x1D4A6), (0x1D4A9, 0x1D4AC), (0x1D4AE, 0x1D4B9), (0x1D4BB, 0x1D4BB),
  (0x1D4BD, 0x1D4C3), (0x1D4C5, 0x1D505), (0x1D507, 0x1D50A), (0x1D50D, 0x1D514),
  (0x1D516, 0x1D51C), (0x1D51E, 0x1D539), (0x1D53B, 0x1D53E), (0x1D540, 0x1D544),
  (0x1D546, 0x1D546), (0x1D54A, 0x1D550), (0x1D552, 0x1D6A5), (0x1D6A8, 0x1D6C0),
  (0x1D6C2, 0x1D6DA), (0x1D6DC, 0x1D6FA), (0x1D6FC, 0x1D714), (0x1D716, 0x1D734),
  (0x1D736, 0x1D74E), (0x1D750, 0x1D76E), (0x1D770, 0x1D788), (0x1D78A, 0x1D7A8),
  (0x1D7AA, 0x1D7C2), (0x1D7C4, 0x1D7CB), (0x1DF00, 0x1DF09), (0x1DF0B, 0x1DF1E),
  (0x1DF25, 0x1DF2A), (0x1E030, 0x1E06D), (0x1F130, 0x1F149), (0x1F150, 0x1F169),
  (0x1F170, 0x1F189)]

/-- Modifier letters and modifier symbols. -/
def modifiers : List (Nat × Nat) := [
  (0x5E, 0x5E), (0x60, 0x60), (0xA8, 0xA8), (0xAF, 0xAF), (0xB4, 0xB4), (0xB8, 0xB8),
  (0x2B0, 0x2FF), (0x374, 0x375), (0x37A, 0x37A), (0x384, 0x385), (0x559, 0x559), (0x640, 0x640),
  (0x6E5, 0x6E6), (0x7F4, 0x7F5), (0x7FA, 0x7FA), (0x81A, 0x81A), (0x824, 0x824), (0x828, 0x828),
  (0x888, 0x888), (0x8C9, 0x8C9), (0x971, 0x971), (0xE46, 0xE46), (0xEC6, 0xEC6), (0x10FC, 0x10FC),
  (0x17D7, 0x17D7), (0x1843, 0x1843), (0x1AA7, 0x1AA7), (0x1C78, 0x1C7D), (0x1D2C, 0x1D6A),
  (0x1D78, 0x1D78), (0x1D9B, 0x1DBF), (0x1FBD, 0x1FBD), (0x1FBF, 0x1FC1), (0x1FCD, 0x1FCF),
  (0x1FDD, 0x1FDF), (0x1FED, 0x1FEF), (0x1FFD, 0x1FFE), (0x2071, 0x2071), (0x207F, 0x207F),
  (0x2090, 0x209C), (0x2C7C, 0x2C7D), (0x2D6F, 0x2D6F), (0x2E2F, 0x2E2F), (0x3005, 0x3005),
  (0x3031, 0x3035), (0x303B, 0x303B), (0x309B, 0x309E), (0x30FC, 0x30FE), (0xA015, 0xA015),
  (0xA4F8, 0xA4FD), (0xA60C, 0xA60C), (0xA67F, 0xA67F), (0xA69C, 0xA69D), (0xA700, 0xA721),
  (0xA770, 0xA770), (0xA788, 0xA78A), (0xA7F1, 0xA7F4), (0xA7F8, 0xA7F9), (0xA9CF, 0xA9CF),
  (0xA9E6, 0xA9E6), (0xAA70, 0xAA70), (0xAADD, 0xAADD), (0xAAF3, 0xAAF4), (0xAB5B, 0xAB5F),
  (0xAB69, 0xAB6B), (0xFBB2, 0xFBC2), (0xFF3E, 0xFF3E), (0xFF40, 0xFF40), (0xFF70, 0xFF70),
  (0xFF9E, 0xFF9F), (0xFFE3, 0xFFE3), (0x10780, 0x10785), (0x10787, 0x107B0), (0x107B2, 0x107BA),
  (0x10D4E, 0x10D4E), (0x10D6F, 0x10D6F), (0x10EC5, 0x10EC5), (0x11DD9, 0x11DD9),
  (0x16B40, 0x16B43), (0x16D40, 0x16D42), (0x16D6B, 0x16D6C), (0x16F93, 0x16F9F),
  (0x16FE0, 0x16FE1), (0x16FE3, 0x16FE3), (0x16FF2, 0x16FF3), (0x1AFF0, 0x1AFF3),
  (0x1AFF5, 0x1AFFB), (0x1AFFD, 0x1AFFE), (0x1E030, 0x1E06D), (0x1E137, 0x1E13D),
  (0x1E4EB, 0x1E4EB), (0x1E6FF, 0x1E6FF), (0x1E94B, 0x1E94B), (0x1F3FB, 0x1F3FF)]

/-- Punctuation that may stand within a word. -/
def midWordMarks : List (Nat × Nat) := [
  (0x27, 0x27), (0x2E, 0x2E), (0x3A, 0x3A), (0xB7, 0xB7), (0x387, 0x387), (0x55F, 0x55F),
  (0x5F4, 0x5F4), (0x2018, 0x2019), (0x2024, 0x2024), (0x2027, 0x2027), (0xFE13, 0xFE13),
  (0xFE52, 0xFE52), (0xFE55, 0xFE55), (0xFF07, 0xFF07), (0xFF0E, 0xFF0E), (0xFF1A, 0xFF1A)]

/-- The lower case of the code point `n`, if it has another one. -/
def lowerShift? (n : Nat) : Option Nat :=
  (caseRuns.find? fun (lo, hi, step, _) => lo ≤ n && n ≤ hi && (n - lo) % step == 0).map
    fun (_, _, _, shift) => (n + shift).toNat

/-- Whether the code point is the lower case of another one. -/
def isLowerOfPair (n : Nat) : Bool :=
  caseRuns.any fun (lo, hi, step, shift) =>
    let m := n - shift
    decide ((lo : Int) ≤ m) && decide (m ≤ hi) && (m.toNat - lo) % step == 0

/-- The capital i with a dot. -/
def dottedCapitalI : Nat := 0x130

/-- Whether the character has another lower case. -/
def changesInLower (c : Char) : Bool :=
  c.toNat == dottedCapitalI || (lowerShift? c.toNat).isSome

/-- Whether the character has another upper case. -/
def changesInUpper (c : Char) : Bool :=
  isLowerOfPair c.toNat || inRanges unpairedLower c.toNat || inRanges titleCase c.toNat

/-- The property `Cased`. -/
def isCased (c : Char) : Bool :=
  changesInLower c || changesInUpper c || inRanges unchangingCased c.toNat

/-- The property `Case_Ignorable`: whether a word goes on over the character whatever its case. -/
def isCaseIgnorable (c : Char) : Bool :=
  let n := c.toNat
  isNonspacing n || isFormat n || inRanges modifiers n || inRanges midWordMarks n

/-- The lower case of a character.  The dotted capital i keeps its dot as a combining mark. -/
def lowerChar (c : Char) : List Char :=
  if c.toNat == dottedCapitalI then [Char.ofNat 0x69, Char.ofNat 0x307]
  else match lowerShift? c.toNat with
    | some n => [Char.ofNat n]
    | none => [c]

/-- Whether a letter with a case comes first when the characters are passed over that have no say
in it. -/
def meetsCased (cs : List Char) : Bool := (cs.find? (!isCaseIgnorable ·)).any isCased

/-- The lower case of characters, where `before` holds the characters before them in reverse.  A
capital sigma that ends a word takes the final form. -/
def lowerFrom (before : List Char) : List Char → List Char
  | [] => []
  | c :: cs =>
    (if c.toNat == 0x3A3 && meetsCased before && !meetsCased cs then [Char.ofNat 0x3C2]
      else lowerChar c)
      ++ lowerFrom (c :: before) cs

/-- The text in lower case. -/
def toLower (s : String) : String := String.ofList (lowerFrom [] s.toList)

end BoundSql.Text
