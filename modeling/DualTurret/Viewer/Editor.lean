import DualTurret.Viewer.Highlight
import DualTurret.Workbench

/-!
# The editor

The editor holds the program text, the line of the cursor and the lines that carry
errors and warnings.  A line with an error counts as no warning line.  Its shaded
lines are those of the moment at which they were last put together: the cursor
line first, then error lines, then warning lines.
-/

namespace DualTurret
namespace Viewer

structure Editor where
  text : Text := []
  cursorLine : Int := 1
  errorLines : List Int := []
  warningLines : List Int := []
  shaded : List (Int × Colour) := []

namespace Editor

def cursorColour : Colour :=
  "#44475a".toList

def errorColour : Colour :=
  "#660000".toList

def warningColour : Colour :=
  "#5c4300".toList

def hasLine (e : Editor) (line : Int) : Bool :=
  1 ≤ line && line ≤ (Text.lines e.text).length

/-- Puts the shaded lines together anew, without lines that the text does not have. -/
def reshade (e : Editor) : Editor :=
  { e with
    shaded :=
      (e.cursorLine, cursorColour) ::
        ((e.errorLines.filter e.hasLine).map (·, errorColour) ++
          (e.warningLines.filter e.hasLine).map (·, warningColour)) }

/-- Replaces the text; the cursor goes to the first line. -/
def setText (e : Editor) (text : Text) : Editor :=
  { e with text, cursorLine := 1 }

/-- Marks lines with errors and, among the others, lines with warnings. -/
def mark (e : Editor) (errors warnings : List Int) : Editor :=
  { e with
    errorLines := sortedLines errors
    warningLines := (sortedLines warnings).filter fun line => !errors.contains line }.reshade

def clear (e : Editor) : Editor :=
  e.mark [] []

/-- Moves the cursor to a line that the text has. -/
def gotoLine (e : Editor) (line : Int) : Editor :=
  if e.hasLine line && line ≠ e.cursorLine then { e with cursorLine := line }.reshade else e

end Editor
end Viewer
end DualTurret
