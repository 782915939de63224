import DualTurret.Document.Value

/-!
# Writing documents

One field or item per line, two blanks deeper at each level, in ASCII alone: all
other characters are written as escapes.
-/

namespace DualTurret
namespace Document

/-- The digit of a value below 16. -/
def hexDigit (n : Nat) : Char :=
  if n < 10 then Char.ofNat (48 + n) else Char.ofNat (87 + n)

/-- The escape of a code point below `0x10000`. -/
def unitEscape (n : Nat) : Text :=
  ['\\', 'u', hexDigit (n / 0x1000 % 16), hexDigit (n / 0x100 % 16), hexDigit (n / 0x10 % 16),
    hexDigit (n % 16)]

/-- How a code point is written inside quotes. -/
def escape (p : CodePoint) : Text :=
  if p.val = 0x22 then ['\\', '"']
  else if p.val = 0x5C then ['\\', '\\']
  else if p.val = 0x0A then ['\\', 'n']
  else if p.val = 0x0D then ['\\', 'r']
  else if p.val = 0x09 then ['\\', 't']
  else if p.val = 0x0C then ['\\', 'f']
  else if p.val = 0x08 then ['\\', 'b']
  else if 0x20 ≤ p.val ∧ p.val ≤ 0x7E then [Char.ofNat p.val]
  else if p.val < 0x10000 then unitEscape p.val
  else
    unitEscape (0xD800 + (p.val - 0x10000) / 0x400) ++
      unitEscape (0xDC00 + (p.val - 0x10000) % 0x400)

def quote (t : DocText) : Text :=
  '"' :: t.flatMap escape ++ ['"']

/-- A number; the infinities and NaN are words. -/
def numberText : Number → Text
  | .whole n => intText n
  | .real (.infinite negative) => signed negative "Infinity".toList
  | .real .nan => "NaN".toList
  | .real x => x.text

/-- A line feed and the blanks of a level. -/
def newLine (depth : Nat) : Text :=
  '\n' :: List.replicate (2 * depth) ' '

mutual

/-- The text of a value that stands at a level. -/
def write
    (depth : Nat) :
    Value → Text
  | .null => "null".toList
  | .truth b => if b then "true".toList else "false".toList
  | .number x => numberText x
  | .text t => quote t
  | .list [] => "[]".toList
  | .list (v :: vs) =>
      '[' :: newLine (depth + 1) ++ write (depth + 1) v ++ writeItems (depth + 1) vs ++
        newLine depth ++ [']']
  | .object [] => "\x7b\x7d".toList
  | .object ((key, v) :: fields) =>
      '\x7b' :: newLine (depth + 1) ++ quote key ++ ": ".toList ++ write (depth + 1) v ++
        writeFields (depth + 1) fields ++ newLine depth ++ ['\x7d']

/-- The items after the first one. -/
def writeItems
    (depth : Nat) :
    List Value → Text
  | [] => []
  | v :: vs => ',' :: newLine depth ++ write depth v ++ writeItems depth vs

/-- The fields after the first one. -/
def writeFields
    (depth : Nat) :
    List (DocText × Value) → Text
  | [] => []
  | (key, v) :: fields =>
      ',' :: newLine depth ++ quote key ++ ": ".toList ++ write depth v ++
        writeFields depth fields

end

end Document
end DualTurret
