import DualTurret.Block.Marker
import DualTurret.Block.Wait

/-!
# Dialects

A dialect is the vocabulary of a control: the G codes that it supports, the
markers that select turrets and spindles and switch modes, and the ranges of its
wait codes.
-/

namespace DualTurret

/-- The vocabulary of a control. -/
structure Dialect where
  gCodeTable : List Text
  turretSelect : List (Text × Text)
  spindleSelect : List (Text × Text)
  millingStart : List Text
  millingStop : List Text
  crossStart : List Text
  crossStop : List Text
  balanceStart : Text
  balanceEnd : Text
  waitM : ValueRange
  waitP : ValueRange
  deriving DecidableEq

/-- The G codes of the Integrex control, in the form it documents: `G00`, not `G0`. -/
def integrexCodes : List String := [
  "G00", "G01", "G01.1", "G02", "G02.1", "G03", "G03.1", "G04", "G05", "G06.1", "G06.2", "G07",
  "G07.1", "G09", "G10", "G10.1", "G10.9", "G109", "G11", "G110", "G111", "G112", "G113",
  "G114.3", "G12.1", "G122", "G122.1", "G123", "G123.1", "G13.1", "G130", "G136", "G137", "G17",
  "G18", "G19", "G20", "G21", "G22", "G23", "G234.1", "G235", "G236", "G237.1", "G27", "G270",
  "G271", "G272", "G273", "G274", "G275", "G276", "G28", "G283", "G284", "G284.2", "G285",
  "G287", "G288", "G288.2", "G289", "G29", "G290", "G292", "G294", "G30", "G31", "G31.1",
  "G31.2", "G31.3", "G32", "G33", "G34", "G34.1", "G35", "G36", "G37", "G37.1", "G40", "G41",
  "G42", "G43", "G44", "G49", "G50", "G52", "G53", "G53.5", "G54", "G54.1", "G54.2", "G55",
  "G56", "G57", "G58", "G59", "G60", "G61", "G61.1", "G62", "G63", "G64", "G65", "G66", "G66.1",
  "G67", "G68", "G68.2", "G68.5", "G69", "G69.5", "G70", "G71", "G71.1", "G72", "G72.1", "G73",
  "G74", "G75", "G76", "G77", "G78", "G79", "G80", "G81", "G82", "G83", "G84", "G84.2", "G84.3",
  "G85", "G86", "G87", "G88", "G88.2", "G89", "G90", "G91", "G92", "G92.5", "G93", "G94", "G95",
  "G96", "G97", "G98", "G99"]

namespace Dialect

/-- The dialect of the Mazak Integrex lathes. -/
def integrex : Dialect where
  gCodeTable := integrexCodes.map String.toList
  turretSelect := [("upper".toList, "G109 L1".toList), ("lower".toList, "G109 L2".toList)]
  spindleSelect := [("HD1".toList, "M901".toList), ("HD2".toList, "M902".toList)]
  millingStart := ["M200", "M203", "M204", "M300", "M303", "M304"].map String.toList
  millingStop := ["M205", "M305"].map String.toList
  crossStart := ["G110".toList]
  crossStop := ["G111".toList]
  balanceStart := "M562".toList
  balanceEnd := "M563".toList
  waitM := ⟨950, 997⟩
  waitP := ⟨1, 99999999⟩

/-- The name of the dialect of the Integrex lathes. -/
def integrexName : Text :=
  "mazak_integrex".toList

def knownNames : List Text :=
  [integrexName]

/-- The markers of some names as they were given: a name keeps its first place, and
the last marker given for it counts. -/
def nameTable (given : List (Text × Text)) : List (Text × Text) :=
  given.foldl
    (fun table entry =>
      if table.any (fun known => known.1 == entry.1) then
        table.map fun known => if known.1 == entry.1 then entry else known
      else table ++ [entry])
    []

/-- The control supports the G code, written just so. -/
def supports (d : Dialect) (code : Text) : Bool :=
  d.gCodeTable.contains code

def waitCode? (d : Dialect) (line : Text) : Option WaitCode :=
  Block.waitCode? d.waitM d.waitP line

/-- The name of the turret that a line selects, with its marker. -/
def selectedTurret? (d : Dialect) (line : Text) : Option (Text × Text) :=
  Block.heldName? line d.turretSelect

/-- The name of the spindle that a line selects, with its marker. -/
def selectedSpindle? (d : Dialect) (line : Text) : Option (Text × Text) :=
  Block.heldName? line d.spindleSelect

end Dialect

end DualTurret
