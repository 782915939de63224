import DualTurret.Analysis

/-!
# A workbench

A workbench keeps a machine, the last value that it was asked to analyze and the
last analysis that succeeded.  Before the first analysis, and after a reset, its
views are empty.
-/

namespace DualTurret

/-- Sorted without repetitions. -/
def sortedLines (lines : List Int) : List Int :=
  (lines.mergeSort (· ≤ ·)).eraseDups

/-- A machine with the last text and the last analysis. -/
structure Workbench where
  machine : Machine
  lastText : Value := Value.ofText []
  result : Option Result := none

namespace Workbench

/-- Analyzes a value and keeps the result.  The value is kept even if the analysis
fails, and then the earlier result stays.  The answer is whether there are no errors. -/
def process (w : Workbench) (value : Value) : Workbench × Except AnalysisError Bool :=
  let w := { w with lastText := value }
  match w.machine.analyzeValue value with
  | .ok result => ({ w with result := some result }, .ok (Log.errors result.log).isEmpty)
  | .error e => (w, .error e)

/-- Takes the preset of a name as machine from now on. -/
def setMachine (w : Workbench) (name : Text) : Workbench :=
  { w with machine := Machine.ofPreset name }

def reset (w : Workbench) : Workbench :=
  { w with lastText := Value.ofText [], result := none }

/-- The diagnostics of a line, errors first. -/
def diagnosticsAt (w : Workbench) (line : Int) : Log :=
  match w.result with
  | some result => result.diagnosticsAt line
  | none => []

def diagnostics (w : Workbench) : Log :=
  match w.result with
  | some result => Log.bySeverity result.log
  | none => []

/-- The lines with errors, in increasing order. -/
def errorLines (w : Workbench) : List Int :=
  match w.result with
  | some result => sortedLines ((Log.errors result.log).map (·.line))
  | none => []

def hasErrors (w : Workbench) : Bool :=
  match w.result with
  | some result => !(Log.errors result.log).isEmpty
  | none => false

def common (w : Workbench) : List ClassifiedLine :=
  match w.result with
  | some result => result.common
  | none => []

def stream (w : Workbench) (t : Turret) : List ClassifiedLine :=
  match w.result with
  | some result => result.streams.get t
  | none => []

def statistics (w : Workbench) : Statistics :=
  match w.result with
  | some result => result.statistics
  | none => {}

def finalStates (w : Workbench) : Option (PerTurret TurretState) :=
  w.result.map (·.finalStates)

end Workbench
end DualTurret
