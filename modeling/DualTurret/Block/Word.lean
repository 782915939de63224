import DualTurret.Block.Position
import DualTurret.Number.Binary64

/-!
# Address words of a block

An address word is a letter with a number right after it, at the beginning of a
word.  G codes, spindle speeds and wait codes end where a word may end; a feed
rate ends with its number.  Number texts keep the form in which they were written.
-/

namespace DualTurret
namespace Block

/-- A point, digits and the end of a word. -/
def decimalPart? : Text → Option Text
  | '.' :: t =>
      let (digits, rest) := digitRun t
      if !digits.isEmpty && wordMayEnd rest then some digits else none
  | _ => none

/-- The number of a G code: digits, with a decimal part if the word ends after it. -/
def gNumber? (t : Text) : Option Text :=
  let (digits, rest) := digitRun t
  if digits.isEmpty then none
  else
    match decimalPart? rest with
    | some decimals => some (digits ++ '.' :: decimals)
    | none => if wordMayEnd rest then some digits else none

/-- The G code that begins here. -/
def gCodeAt
    (before : Option Char) :
    Text → Option Text
  | 'G' :: t => if wordMayBegin before then (gNumber? t).map ('G' :: ·) else none
  | _ => none

/-- Every G code of a line, from left to right. -/
def gCodes (line : Text) : List Text :=
  findAll gCodeAt none line

/-- The digits of a whole-number word with the given address that begins here. -/
def wholeWordAt
    (address : Char)
    (before : Option Char) :
    Text → Option Text
  | [] => none
  | c :: t =>
      if c == address && wordMayBegin before then
        let (digits, rest) := digitRun t
        if !digits.isEmpty && wordMayEnd rest then some digits else none
      else none

/-- The digits of every whole-number word with the given address. -/
def wholeWords (address : Char) (line : Text) : List Text :=
  findAll (wholeWordAt address) none line

/-- The digits without leading zeros; zero keeps one. -/
def significant (digits : Text) : Text :=
  match digits.dropWhile (· == '0') with
  | [] => ['0']
  | rest => rest

/-- Most significant digits that a word's value is read from. -/
def maxValueDigits : Nat := 18

/-- The value of a run of digits, unless it has too many significant ones. -/
def wordValue? (digits : Text) : Option Nat :=
  if maxValueDigits < (significant digits).length then none
  else some (Binary64.digitsValue ((significant digits).filterMap Text.digitValue?))

/-- Significant digits of the first spindle speed of a line. -/
def speedDigits? (line : Text) : Option Text :=
  (wholeWords 'S' line).head?.map significant

/-- The first spindle speed of a line, unless it is too long to have a value. -/
def speed? (line : Text) : Option Nat :=
  (speedDigits? line).bind wordValue?

/-- The number text of a feed rate that begins here. -/
def feedAt
    (before : Option Char) :
    Text → Option Text
  | 'F' :: t => if wordMayBegin before then (unsignedNumber? t).map (·.1) else none
  | _ => none

/-- The number nearest to an unsigned number text. -/
def decimalValue (t : Text) : Binary64 :=
  let whole := t.takeWhile (· != '.')
  let fraction := (t.dropWhile (· != '.')).drop 1
  Binary64.ofDecimal false ((whole ++ fraction).filterMap Text.digitValue?) (-fraction.length)

def feedRate? (line : Text) : Option Binary64 :=
  (findAll feedAt none line).head?.map decimalValue

/-- The digits of a text in which single underscores may stand between digits. -/
def spacedDigits?
    (afterDigit : Bool) :
    Text → Option (List Nat)
  | [] => if afterDigit then some [] else none
  | c :: t =>
      if afterDigit && c == '_' then spacedDigits? false t
      else do
        let d ← Text.digitValue? c
        let ds ← spacedDigits? true t
        return d :: ds

/-- Blanks that may surround a number text: all but the information separators. -/
def isPadding (c : Char) : Bool :=
  Text.isBlank c && !(0x1C ≤ c.toNat && c.toNat ≤ 0x1F)

/-- The whole number that a text denotes, with a sign, padding and underscores
between digits allowed. -/
def wholeNumber? (t : Text) : Option Int :=
  let body := ((t.dropWhile isPadding).reverse.dropWhile isPadding).reverse
  let (negative, digits) :=
    match body with
    | '-' :: t => (true, t)
    | '+' :: t => (false, t)
    | t => (false, t)
  (spacedDigits? false digits).map fun ds =>
    let n : Int := Binary64.digitsValue ds
    if negative then -n else n

/-- What becomes of a text given as the number of a word. -/
inductive WordNumber where
  | overlong
  | malformed
  | value (n : Int)
  deriving DecidableEq

/-- Reads any text as the number of a word, under the limit of `wordValue?`. -/
def readWordNumber (t : Text) : WordNumber :=
  if maxValueDigits < (significant t).length then .overlong
  else
    match wholeNumber? (significant t) with
    | some n => .value n
    | none => .malformed

end Block
end DualTurret
