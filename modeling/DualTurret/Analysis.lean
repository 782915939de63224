import DualTurret.Scan.Step

/-!
# Analysis of a program

One pass over the lines of a program, from a fresh scan.  Blank lines and section
dividers are passed over, but keep their numbers.  The result holds the three
streams, the log, the final states of both turrets and the number of lines.
-/

namespace DualTurret

/-- The streams and diagnostics of a program. -/
structure Result where
  common : List ClassifiedLine
  streams : PerTurret (List ClassifiedLine)
  log : Log
  finalStates : PerTurret TurretState
  totalLines : Nat

/-- Line and diagnostic counts.  Comments are not counted as lines. -/
structure Statistics where
  totalLines : Nat := 0
  common : Nat := 0
  lines : PerTurret Nat := ⟨0, 0⟩
  errors : Nat := 0
  warnings : Nat := 0
  notes : Nat := 0
  deriving DecidableEq

/-- The result of a scan over the raw lines. -/
def Scan.toResult (s : Scan) (raw : List Text) : Result where
  common := s.common
  streams := s.streams
  log := s.log
  finalStates := s.progress.states
  totalLines := raw.length

namespace Machine

/-- A line that is passed over: it is blank or decoration. -/
def isSkipped (line : Text) : Bool :=
  (Text.trim line).isEmpty || Block.isDivider line

end Machine

namespace Scanning

/-- Reads the line at an index or passes over it. -/
def readNext (m : Machine) (raw : List Text) (index : Nat) (line : Text) : Scanning Unit :=
  if Machine.isSkipped line then pure ()
  else readLine m raw index (index + 1) (Text.trim line)

/-- Reads the remaining lines, the first of which has the given index. -/
def readLines
    (m : Machine)
    (raw : List Text)
    (index : Nat) :
    List Text → Scanning Unit
  | [] => pure ()
  | line :: lines => do
      readNext m raw index line
      readLines m raw (index + 1) lines

end Scanning

def Machine.analyze (m : Machine) (program : Text) : Except Fault Result :=
  let raw := Text.lines program
  match (Scanning.readLines m raw 0 raw).runOn {} with
  | (s, none) => .ok (s.toResult raw)
  | (_, some fault) => .error fault

/-- Why there is no analysis of a value. -/
inductive AnalysisError where
  | notText (value : Value)
  | fault (f : Fault)

/-- The kind of a value that is not a text. -/
def Value.kindName : Value → Text
  | null => "NoneType".toList
  | truth _ => "bool".toList
  | number (.whole _) => "int".toList
  | number (.real _) => "float".toList
  | text _ => "str".toList
  | list _ => "list".toList
  | object _ => "dict".toList

/-- What is wrong with a program that is not a text. -/
def notTextMessage (value : Value) : Text :=
  "program text must be str, not ".toList ++ value.kindName

/-- Analyzes a value, which must be a text. -/
def Machine.analyzeValue
    (m : Machine) :
    Value → Except AnalysisError Result
  | .text t =>
      match m.analyze (DocText.toText t) with
      | .ok result => .ok result
      | .error f => .error (.fault f)
  | value => .error (.notText value)

namespace Result

/-- The diagnostics of a line, errors first. -/
def diagnosticsAt (r : Result) (line : Int) : Log :=
  (Log.bySeverity r.log).filter fun d => d.line = line

/-- Number of lines of a stream that are not comments. -/
def codeLines (stream : List ClassifiedLine) : Nat :=
  (stream.filter fun entry => !entry.comment).length

def statistics (r : Result) : Statistics where
  totalLines := r.totalLines
  common := codeLines r.common
  lines := r.streams.map codeLines
  errors := (Log.errors r.log).length
  warnings := (Log.warnings r.log).length
  notes := (Log.notes r.log).length

end Result
end DualTurret
