import DualTurret.Block.Position

/-!
# Markers

A marker such as `G109 L1` is a sequence of words.  A line holds it where its
words stand one after the other with blanks between them, no letter right before
the first and no digit or point right after the last.  So a marker may follow a
sequence number directly, and `M9010` does not hold `M901`.
-/

namespace DualTurret
namespace Block

/-- What follows the blanks at the front of a text, of which there must be some. -/
def afterBlanks? : Text → Option Text
  | [] => none
  | c :: t => if Text.isBlank c then some (Text.trimLeft t) else none

/-- What follows the words, with blanks between each two, at the front of a text. -/
def afterWords? : List Text → Text → Option Text
  | [], t => some t
  | [w], t => Text.after? w t
  | w :: v :: words, t => do
      let rest ← Text.after? w t
      let rest ← afterBlanks? rest
      afterWords? (v :: words) rest

/-- No letter precedes. -/
def markerMayBegin : Option Char → Bool
  | none => true
  | some c => !Text.isLetter c

/-- Neither a digit nor a point follows. -/
def markerMayEnd : Text → Bool
  | [] => true
  | c :: _ => !(Text.isDecimal c || c == '.')

/-- The words of a marker stand here. -/
def markerAt (words : List Text) (before : Option Char) (t : Text) : Bool :=
  markerMayBegin before &&
    match afterWords? words t with
    | some rest => markerMayEnd rest
    | none => false

def holdsMarker (line marker : Text) : Bool :=
  holdsSomewhere (markerAt (Text.words marker)) none line

def holdsAny (line : Text) (markers : List Text) : Bool :=
  markers.any (holdsMarker line)

/-- The first name whose marker the line holds, with that marker. -/
def heldName? (line : Text) (named : List (Text × Text)) : Option (Text × Text) :=
  named.find? fun entry => holdsMarker line entry.2

/-- The line is a comment: it begins with a parenthesis. -/
def isComment (line : Text) : Bool :=
  match Text.trim line with
  | '(' :: _ => true
  | _ => false

/-- The line is decoration between sections, such as `(=====)`. -/
def isDivider (line : Text) : Bool :=
  match Text.trim line with
  | '(' :: '=' :: _ => true
  | _ => false

/-- The line begins with a program number, such as `O0001`. -/
def isProgramNumber (line : Text) : Bool :=
  match Text.trim line with
  | 'O' :: c :: _ => Text.isDecimal c
  | _ => false

end Block
end DualTurret
