import DualTurret.Analysis
import DualTurret.Viewer.Highlight

/-!
# Stream panes

A pane lists the lines of one stream under a header.  The header may carry badges:
the active spindle, the modes that are on and the number of code lines.  A pane
without lines shows a placeholder that can not be activated.
-/

namespace DualTurret
namespace Viewer

structure PaneItem where
  text : Text
  line : Option Int := none
  background : Option Colour := none
  foreground : Option Colour := none
  disabled : Bool := false
  deriving DecidableEq

/-- A list of lines under a header. -/
structure Pane where
  title : Text
  header : Text
  items : List PaneItem := []
  deriving DecidableEq

def tagBackground? : StreamTag → Option Colour
  | .common => some "#1e2a4a".toList
  | .turretSelect => some "#16325c".toList
  | .balance => some "#4a3510".toList
  | .normal => none

/-- The colour of comments and placeholders. -/
def commentColour : Colour :=
  "#6c757d".toList

/-- A line number with at least four places, of which a sign takes one. -/
def lineNumberText (line : Int) : Text :=
  if line < 0 then '-' :: padZeros 3 (natText line.natAbs) else padZeros 4 (natText line.natAbs)

/-- A line as a pane shows it. -/
def lineText (entry : ClassifiedLine) : Text :=
  'N' :: lineNumberText entry.line ++ "  ".toList ++ entry.text

def PaneItem.ofLine (entry : ClassifiedLine) : PaneItem where
  text := lineText entry
  line := some entry.line
  background := tagBackground? entry.tag
  foreground := if entry.comment then some commentColour else none

/-- The item that stands for an empty stream. -/
def PaneItem.placeholder (text : Text) : PaneItem where
  text := text
  foreground := some commentColour
  disabled := true

/-- What the badges of a header are made from. -/
structure BadgeState where
  spindle : Option Text := none
  milling : Bool := false
  cross : Bool := false
  deriving DecidableEq

/-- The badges of a turret's modes. -/
def BadgeState.ofModes (modes : Modes) : BadgeState where
  spindle := modes.spindle.map Spindle.name
  milling := modes.milling
  cross := modes.cross

namespace Pane

def new (title : Text) : Pane :=
  { title, header := title }

/-- The placeholder of a pane for which no other one is given. -/
def defaultPlaceholder : Text :=
  "No operations".toList

/-- Shows the lines, or the placeholder if there are none. -/
def setLines (pane : Pane) (lines : List ClassifiedLine) (empty : Text) : Pane :=
  { pane with
    items := if lines.isEmpty then [PaneItem.placeholder empty] else lines.map PaneItem.ofLine }

/-- The badges of a state with a number of lines. -/
def badges (state : BadgeState) (count : Int) : List Text :=
  (match state.spindle with
    | some name => if name.isEmpty then [] else [name]
    | none => []) ++
  (if state.milling then ["MILL".toList] else []) ++
  (if state.cross then ["X-MACH".toList] else []) ++
  [intText count ++ " LINES".toList]

def setBadges (pane : Pane) (state : BadgeState) (count : Int) : Pane :=
  { pane with
    header :=
      pane.title ++ "   [".toList ++ "] [".toList.intercalate (badges state count) ++ [']'] }

/-- The line number that activating an item asks for. -/
def activated? (pane : Pane) (index : Int) : Option Int :=
  if index < 0 then none
  else
    match pane.items[index.toNat]? with
    | some item => item.line.filter (· ≠ 0)
    | none => none

end Pane
end Viewer
end DualTurret
