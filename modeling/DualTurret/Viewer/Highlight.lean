import DualTurret.Block.Token

/-!
# Highlighting of blocks

Words and comments are shown in the colour of their category; end-of-block signs
and characters of no meaning stay plain.
-/

namespace DualTurret
namespace Viewer

/-- A colour, written `#rrggbb`. -/
abbrev Colour := Text

/-- How a piece of text is shown. -/
structure TextFormat where
  colour : Colour
  bold : Bool := false
  italic : Bool := false
  deriving DecidableEq

/-- The categories that have a format, with their colours. -/
def categoryColours : List (Category × String) := [
  (.gcode, "#74c0fc"),
  (.mcode, "#ff8cc8"),
  (.axis, "#51cf66"),
  (.arc, "#63e6be"),
  (.feed, "#cc99ff"),
  (.speed, "#f783ac"),
  (.tool, "#ffd43b"),
  (.sequence, "#adb5bd"),
  (.parameter, "#66d9e8"),
  (.comment, "#6c757d")]

/-- The format of a category in a colour: G and M codes are bold, comments italic. -/
def formatOf (category : Category) (colour : String) : TextFormat where
  colour := colour.toList
  bold := category = .gcode || category = .mcode
  italic := category = .comment

/-- The formats of all categories that have one. -/
def formats : List (Category × TextFormat) :=
  categoryColours.map fun entry => (entry.1, formatOf entry.1 entry.2)

def format? (category : Category) : Option TextFormat :=
  (formats.find? fun entry => entry.1 = category).map (·.2)

/-- A stretch of a line with its format. -/
structure Span where
  start : Nat
  length : Nat
  format : TextFormat
  deriving DecidableEq

/-- The span of a token, if it is shown in a format. -/
def Span.ofToken? (token : Token) : Option Span :=
  (format? (Category.ofLexeme token.lexeme)).map fun format =>
    ⟨token.start, token.lexeme.text.length, format⟩

/-- The formatted stretches of a line, from left to right. -/
def highlight (line : Text) : List Span :=
  (Block.tokens line).filterMap Span.ofToken?

end Viewer
end DualTurret
