import DualTurret.Document.Value
import DualTurret.Turret

/-!
# Diagnostics

A finding is a cause: what was found, with the parts that its message needs.  Its
cause fixes its severity and its wording.  A diagnostic is a finding at a program
line, and a log is a list of them in the order of detection.
-/

namespace DualTurret

/-- How grave a finding is. -/
inductive Severity where
  | error
  | warning
  | info
  deriving DecidableEq

namespace Severity

def name : Severity → Text
  | error => "error".toList
  | warning => "warning".toList
  | info => "info".toList

def ofName (name : Text) : Except UnknownName Severity :=
  if name = error.name then .ok error
  else if name = warning.name then .ok warning
  else if name = info.name then .ok info
  else .error ⟨.severity, name⟩

end Severity

/-- What can be found at a program line.  A remark is worded by whoever makes it. -/
inductive Finding where
  | unsupportedCode (code : Text)
  | zeroFeed
  | longBlock (limit : Value) (length : Nat)
  | selectWithMotion
  | waitMissing (mRange pRange : ValueRange) (marker : Text)
  | slaveWaitMissing (slave : Turret)
  | waitMismatch (master slave : Text)
  | releaseMissing (marker : Text)
  | lowFeed (rate : Binary64)
  | highSpeed (digits : Text)
  | turretSelected (turret : Turret) (marker : Text)
  | spindleSelected (spindle : Spindle) (marker : Text)
  | millingOn
  | millingOff
  | crossOn
  | crossOff
  | balanceStarts (master : Turret)
  | balanceEnds
  | balanceSpeed (digits : Text)
  | remark (severity : Severity) (message : Text)

namespace Finding

def severity : Finding → Severity
  | unsupportedCode _ | zeroFeed | longBlock _ _ => .error
  | selectWithMotion | waitMissing _ _ _ | slaveWaitMissing _ | waitMismatch _ _
  | releaseMissing _ | lowFeed _ | highSpeed _ => .warning
  | turretSelected _ _ | spindleSelected _ _ | millingOn | millingOff | crossOn | crossOff
  | balanceStarts _ | balanceEnds | balanceSpeed _ => .info
  | remark severity _ => severity

/-- The whole numbers of the configuration and the dialect that a wording shows. -/
def wholes : Finding → List Int
  | longBlock (.number (.whole limit)) _ => [limit]
  | waitMissing mRange pRange _ => [mRange.low, mRange.high, pRange.low, pRange.high]
  | _ => []

/-- The wording shows no whole number that is too long to be written. -/
def isWritable (f : Finding) : Bool :=
  f.wholes.all isWritableWhole

/-- A range of words, such as `M950-M997`. -/
def rangeText (address : WaitAddress) (range : ValueRange) : Text :=
  address.letter :: intText range.low ++ '-' :: address.letter :: intText range.high

/-- Decimal places of a feed rate in a message. -/
def feedPlaces : Nat := 10

/-- The wording of a finding.  The checks give only findings that are writable. -/
def message : Finding → Text
  | unsupportedCode code => "Invalid or unsupported G-code: ".toList ++ code
  | zeroFeed => "Feed rate F0 will cause alarm 816 (FEEDRATE ZERO)".toList
  | longBlock limit length =>
      "Block exceeds ".toList ++ limit.shown.toText ++ " character limit (".toList ++
        natText length ++ " chars)".toList
  | selectWithMotion => "G109 should not be combined with G00-G03 in same block".toList
  | waitMissing mRange pRange marker =>
      "Wait code (".toList ++ rangeText .m mRange ++ " or ".toList ++ rangeText .p pRange ++
        ") should precede ".toList ++ marker
  | slaveWaitMissing slave =>
      slave.label ++ " turret needs wait code before balance cutting".toList
  | waitMismatch master slave =>
      "Mismatched wait codes - Master: ".toList ++ master ++ ", Slave: ".toList ++ slave
  | releaseMissing marker =>
      "Wait code required after ".toList ++ marker ++ " to release slave turret".toList
  | lowFeed rate =>
      "Feed rate F".toList ++ rate.fixedText feedPlaces ++ " is unusually low".toList
  | highSpeed digits => "Spindle speed S".toList ++ digits ++ " RPM is unusually high".toList
  | turretSelected turret marker =>
      turret.label ++ " turret selected (".toList ++ marker ++ [')']
  | spindleSelected spindle marker =>
      spindle.ordinal ++ " spindle selected (".toList ++ marker ++ [')']
  | millingOn => "Milling mode activated".toList
  | millingOff => "Milling mode cancelled".toList
  | crossOn => "Cross machining control active".toList
  | crossOff => "Cross machining control cancelled".toList
  | balanceStarts master => "Balance cutting starts (Master: ".toList ++ master.name ++ [')']
  | balanceEnds => "Balance cutting ends".toList
  | balanceSpeed digits => "Spindle speed ".toList ++ digits ++ " RPM in balance cutting".toList
  | remark _ message => message

end Finding

/-- A finding at a program line. -/
structure Diagnostic where
  line : Int
  finding : Finding

namespace Diagnostic

def severity (d : Diagnostic) : Severity :=
  d.finding.severity

def message (d : Diagnostic) : Text :=
  d.finding.message

/-- The wording with the line in front. -/
def text (d : Diagnostic) : Text :=
  "Line ".toList ++ intText d.line ++ ": ".toList ++ d.message

end Diagnostic

/-- Diagnostics in the order of detection. -/
abbrev Log := List Diagnostic

namespace Log

def withSeverity (log : Log) (severity : Severity) : Log :=
  log.filter fun d => d.severity = severity

def errors (log : Log) : Log :=
  Log.withSeverity log .error

def warnings (log : Log) : Log :=
  Log.withSeverity log .warning

def notes (log : Log) : Log :=
  Log.withSeverity log .info

/-- Adds findings at a line. -/
def add (log : Log) (line : Int) (findings : List Finding) : Log :=
  log ++ findings.map fun finding => ⟨line, finding⟩

/-- Errors first, then warnings, then notes. -/
def bySeverity (log : Log) : Log :=
  Log.errors log ++ Log.warnings log ++ Log.notes log

end Log
end DualTurret
