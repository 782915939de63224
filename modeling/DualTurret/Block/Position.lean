import DualTurret.Text.Basic

/-!
# Looking for something at every position of a line

A reader sees the character before a position and the text from there on.  Words
of a block begin where no word character precedes and end where none follows.
-/

namespace DualTurret
namespace Block

/-- What `read` finds at each position of the text, from left to right.  `before` is
the character that precedes the text. -/
def findAll
    {α : Type}
    (read : Option Char → Text → Option α) :
    Option Char → Text → List α
  | before, [] => (read before []).toList
  | before, c :: t => (read before (c :: t)).toList ++ findAll read (some c) t

/-- The test holds at some position of the text. -/
def holdsSomewhere
    (test : Option Char → Text → Bool) :
    Option Char → Text → Bool
  | before, [] => test before []
  | before, c :: t => test before (c :: t) || holdsSomewhere test (some c) t

/-- No word character precedes. -/
def wordMayBegin : Option Char → Bool
  | none => true
  | some c => !Text.isWordChar c

/-- No word character follows. -/
def wordMayEnd : Text → Bool
  | [] => true
  | c :: _ => !Text.isWordChar c

/-- The maximal run of digits at the front of a text, and what follows it. -/
def digitRun (t : Text) : Text × Text :=
  (t.takeWhile Text.isDecimal, t.dropWhile Text.isDecimal)

/-- The longest unsigned number at the front of a text, and what follows it: digits
with an optional point and further digits, or a point with digits after it. -/
def unsignedNumber? (t : Text) : Option (Text × Text) :=
  match digitRun t with
  | ([], '.' :: t) =>
      let (digits, rest) := digitRun t
      if digits.isEmpty then none else some ('.' :: digits, rest)
  | ([], _) => none
  | (whole, '.' :: t) =>
      let (digits, rest) := digitRun t
      some (whole ++ '.' :: digits, rest)
  | (whole, rest) => some (whole, rest)

end Block
end DualTurret
