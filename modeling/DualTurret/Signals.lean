import DualTurret.Diagnostic
import DualTurret.Dialect

/-!
# Mode signals

The signals of a line are what its mode markers ask for.  A turret that follows
them makes a note only where a mode really changes.
-/

namespace DualTurret

/-- The switches of a turret's modes. -/
inductive ModeSwitch where
  | spindle
  | millingStart
  | millingStop
  | crossStart
  | crossStop
  deriving DecidableEq

/-- What the mode markers of a line ask for. -/
structure Signals where
  spindle : Option (Spindle × Text) := none
  millingStart : Bool := false
  millingStop : Bool := false
  crossStart : Bool := false
  crossStop : Bool := false
  deriving DecidableEq

namespace Dialect

def holdsSwitch
    (d : Dialect)
    (line : Text) :
    ModeSwitch → Bool
  | .spindle =>
      match d.selectedSpindle? line with
      | some (name, _) => !name.isEmpty
      | none => false
  | .millingStart => Block.holdsAny line d.millingStart
  | .millingStop => Block.holdsAny line d.millingStop
  | .crossStart => Block.holdsAny line d.crossStart
  | .crossStop => Block.holdsAny line d.crossStop

/-- The spindle that a line selects, with its marker.  An empty name selects none. -/
def spindleSignal
    (d : Dialect)
    (line : Text) :
    Except UnknownName (Option (Spindle × Text)) :=
  match d.selectedSpindle? line with
  | none => .ok none
  | some (name, marker) =>
      if name.isEmpty then .ok none
      else
        match Spindle.ofName name with
        | .ok spindle => .ok (some (spindle, marker))
        | .error e => .error e

/-- The signal of one switch of a line alone. -/
def signal (d : Dialect) (line : Text) (switch : ModeSwitch) : Except UnknownName Signals :=
  match switch with
  | .spindle =>
      match d.spindleSignal line with
      | .ok spindle => .ok { spindle }
      | .error e => .error e
  | .millingStart => .ok { millingStart := d.holdsSwitch line switch }
  | .millingStop => .ok { millingStop := d.holdsSwitch line switch }
  | .crossStart => .ok { crossStart := d.holdsSwitch line switch }
  | .crossStop => .ok { crossStop := d.holdsSwitch line switch }

def signals (d : Dialect) (line : Text) : Except UnknownName Signals :=
  match d.spindleSignal line with
  | .error e => .error e
  | .ok spindle =>
      .ok {
        spindle
        millingStart := d.holdsSwitch line .millingStart
        millingStop := d.holdsSwitch line .millingStop
        crossStart := d.holdsSwitch line .crossStart
        crossStop := d.holdsSwitch line .crossStop }

end Dialect

namespace Modes

/-- Selects a spindle; a note is made only if it was not selected. -/
def selectSpindle
    (modes : Modes) :
    Option (Spindle × Text) → Modes × List Finding
  | none => (modes, [])
  | some (spindle, marker) =>
      if modes.spindle = some spindle then (modes, [])
      else ({ modes with spindle := some spindle }, [.spindleSelected spindle marker])

/-- Switches milling on; a note is made only if it was off. -/
def startMilling (modes : Modes) (asked : Bool) : Modes × List Finding :=
  if asked && !modes.milling then ({ modes with milling := true }, [.millingOn])
  else (modes, [])

/-- Switches milling off; a note is made only if it was on. -/
def stopMilling (modes : Modes) (asked : Bool) : Modes × List Finding :=
  if asked && modes.milling then ({ modes with milling := false }, [.millingOff])
  else (modes, [])

/-- Switches cross machining on; a note is made only if it was off. -/
def startCross (modes : Modes) (asked : Bool) : Modes × List Finding :=
  if asked && !modes.cross then ({ modes with cross := true }, [.crossOn])
  else (modes, [])

/-- Switches cross machining off; a note is made only if it was on. -/
def stopCross (modes : Modes) (asked : Bool) : Modes × List Finding :=
  if asked && modes.cross then ({ modes with cross := false }, [.crossOff])
  else (modes, [])

/-- Follows the signals of a line: spindle, then milling, then cross machining, and
for each mode on before off. -/
def follow (modes : Modes) (signals : Signals) : Modes × List Finding :=
  let (modes, spindleNotes) := modes.selectSpindle signals.spindle
  let (modes, onNotes) := modes.startMilling signals.millingStart
  let (modes, offNotes) := modes.stopMilling signals.millingStop
  let (modes, crossOnNotes) := modes.startCross signals.crossStart
  let (modes, crossOffNotes) := modes.stopCross signals.crossStop
  (modes, spindleNotes ++ onNotes ++ offNotes ++ crossOnNotes ++ crossOffNotes)

end Modes
end DualTurret
