import DualTurret.Text.Basic
import DualTurret.Text.Unprintable

/-!
# Quoted text

A message shows a foreign text between quotes, in one line and without characters
that do not print.  The quotes are single ones, unless the text holds single quotes
and no double ones.
-/

namespace DualTurret
namespace Text

/-- Characters that print, among them the plain blank. -/
def isPrintable (c : Char) : Bool :=
  if c.toNat < 0x80 then 0x20 ≤ c.toNat && c.toNat ≤ 0x7E
  else !inRanges unprintableRanges c.toNat

/-- The digits of a number below `16 ^ width`. -/
def hexDigits (width n : Nat) : Text :=
  (Nat.toDigits 16 (Nat.pow 16 width + n)).drop 1

/-- A code point by its number, with two, four or eight digits. -/
def numberEscape (n : Nat) : Text :=
  if n < 0x100 then '\\' :: 'x' :: hexDigits 2 n
  else if n < 0x10000 then '\\' :: 'u' :: hexDigits 4 n
  else '\\' :: 'U' :: hexDigits 8 n

/-- How a character shows between two quotes. -/
def quotedChar (quote c : Char) : Text :=
  if c = quote || c = '\\' then ['\\', c]
  else if c = '\n' then ['\\', 'n']
  else if c = '\r' then ['\\', 'r']
  else if c = '\t' then ['\\', 't']
  else if isPrintable c then [c]
  else numberEscape c.toNat

/-- The quote that a text is put in. -/
def quoteFor (t : Text) : Char :=
  if t.contains '\'' && !t.contains '"' then '"' else '\''

def quoted (t : Text) : Text :=
  quoteFor t :: t.flatMap (quotedChar (quoteFor t)) ++ [quoteFor t]

end Text
end DualTurret
