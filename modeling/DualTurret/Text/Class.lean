import DualTurret.Text.Alphanumeric

/-!
# Character classes of program text

Blanks, decimal digits of every script, the address letters `A`-`Z` and
`a`-`z`, and the word characters that decide where a word begins and ends.
Digits of any script count as digits and carry their value.
-/

namespace DualTurret
namespace Text

def inRanges (ranges : List (Nat × Nat)) (n : Nat) : Bool :=
  ranges.any fun r => r.1 ≤ n && n ≤ r.2

def blankRanges : List (Nat × Nat) := [
  (0x9, 0xD), (0x1C, 0x20), (0x85, 0x85), (0xA0, 0xA0), (0x1680, 0x1680), (0x2000, 0x200A),
  (0x2028, 0x2029), (0x202F, 0x202F), (0x205F, 0x205F), (0x3000, 0x3000)]

/-- Spaces, tabs, line and page breaks, and the four information separators. -/
def isBlank (c : Char) : Bool :=
  inRanges blankRanges c.toNat

/-- The digit zero of each script of Unicode 14.0; the other nine digits follow it. -/
def decimalZeros : List Nat := [
  0x30, 0x660, 0x6F0, 0x7C0, 0x966, 0x9E6, 0xA66, 0xAE6, 0xB66, 0xBE6, 0xC66, 0xCE6, 0xD66,
  0xDE6, 0xE50, 0xED0, 0xF20, 0x1040, 0x1090, 0x17E0, 0x1810, 0x1946, 0x19D0, 0x1A80, 0x1A90,
  0x1B50, 0x1BB0, 0x1C40, 0x1C50, 0xA620, 0xA8D0, 0xA900, 0xA9D0, 0xA9F0, 0xAA50, 0xABF0, 0xFF10,
  0x104A0, 0x10D30, 0x11066, 0x110F0, 0x11136, 0x111D0, 0x112F0, 0x11450, 0x114D0, 0x11650,
  0x116C0, 0x11730, 0x118E0, 0x11950, 0x11C50, 0x11D50, 0x11DA0, 0x16A60, 0x16AC0, 0x16B50,
  0x1D7CE, 0x1D7D8, 0x1D7E2, 0x1D7EC, 0x1D7F6, 0x1E140, 0x1E2F0, 0x1E950, 0x1FBF0]

/-- The value of a decimal digit of any script. -/
def digitValue? (c : Char) : Option Nat :=
  (decimalZeros.find? fun z => z ≤ c.toNat && c.toNat < z + 10).map (c.toNat - ·)

/-- Decimal digits of any script; superscripts and fractions are not among them. -/
def isDecimal (c : Char) : Bool :=
  (digitValue? c).isSome

/-- The letters that can be an address. -/
def isLetter (c : Char) : Bool :=
  ('A' ≤ c && c ≤ 'Z') || ('a' ≤ c && c ≤ 'z')

/-- Underscore, digits, and letters and numerals of any script. -/
def isWordChar (c : Char) : Bool :=
  c == '_' || isLetter c || isDecimal c ||
    (128 ≤ c.toNat && inRanges alphanumericRanges c.toNat)

theorem isWordChar_of_isDecimal
    {c : Char}
    (h : isDecimal c = true) :
    isWordChar c = true := by
  simp [isWordChar, h]

theorem isWordChar_of_isLetter
    {c : Char}
    (h : isLetter c = true) :
    isWordChar c = true := by
  simp [isWordChar, h]

end Text
end DualTurret
