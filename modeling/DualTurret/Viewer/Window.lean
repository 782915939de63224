import DualTurret.Sample
import DualTurret.Text.Utf8
import DualTurret.Viewer.Editor
import DualTurret.Viewer.Files
import DualTurret.Viewer.Pane

/-!
# The main window

The window shows the program in an editor, its three streams in panes, the
diagnostics in a console and the counts in a panel.  Every analysis renews all of
them.  A change of the text only sets a timer, which starts the analysis.
-/

namespace DualTurret
namespace Viewer

structure MessageBox where
  title : Text
  text : Text
  deriving DecidableEq

/-- The main window and the folder in which it opens and saves programs. -/
structure Window where
  bench : Workbench
  machineName : Text
  editor : Editor := {}
  common : Pane
  turrets : PerTurret Pane
  status : Text
  console : Text := []
  panel : Text
  pending : Option Nat := none
  folder : Folder := {}

inductive PaneName where
  | common
  | turret (t : Turret)
  deriving DecidableEq

namespace Window

def title : Text :=
  "Integrex Dual-Turret Program Analyzer".toList

/-- The labels of the buttons that load, save and analyze. -/
def buttonLabels : List Text :=
  ["Load Program".toList, "Save Program".toList, "Analyze".toList]

def machineNames : List Text :=
  Config.presets.map (·.1)

/-- Milliseconds from the last change of the text to its analysis. -/
def analysisDelay : Nat := 500

/-- Notes that the console shows before it only counts the rest. -/
def notesShown : Nat := 5

/-- A console line for a diagnostic. -/
def consoleLine (kind : String) (d : Diagnostic) : Text :=
  '[' :: kind.toList ++ "] ".toList ++ d.text

/-- The line that counts the notes which are not shown. -/
def hiddenNotes (log : Log) : List Text :=
  let count := (Log.notes log).length
  if notesShown < count then
    ["[INFO] ...and ".toList ++ natText (count - notesShown) ++ " more".toList]
  else []

def consoleLines (log : Log) : List Text :=
  (Log.errors log).map (consoleLine "ERROR") ++
    (Log.warnings log).map (consoleLine "WARNING") ++
    ((Log.notes log).take notesShown).map (consoleLine "INFO") ++
    hiddenNotes log

def consoleText (log : Log) : Text :=
  if log.isEmpty then "No findings.".toList else ['\n'].intercalate (consoleLines log)

/-- The text of the panel with the counts. -/
def panelText (machine : Value) (counts : Statistics) : Text :=
  ['\n'].intercalate [
    "Statistics:".toList,
    "Machine: ".toList ++ machine.shown.toText,
    "Total Lines: ".toList ++ natText counts.totalLines,
    "Common: ".toList ++ natText counts.common,
    "Upper Turret: ".toList ++ natText counts.lines.upper,
    "Lower Turret: ".toList ++ natText counts.lines.lower,
    [],
    "Errors: ".toList ++ natText counts.errors,
    "Warnings: ".toList ++ natText counts.warnings,
    "Info: ".toList ++ natText counts.notes]

def turretPlaceholder (t : Turret) : Text :=
  "No ".toList ++ t.name ++ " turret operations".toList

def turretPane (result : Result) (pane : Pane) (t : Turret) : Pane :=
  (pane.setLines (result.streams.get t) (turretPlaceholder t)).setBadges
    (BadgeState.ofModes (result.finalStates.get t).modes) (result.statistics.lines.get t)

/-- Shows a result in every part of the window. -/
def showResult (w : Window) (result : Result) : Window :=
  { w with
    common := w.common.setLines result.common "No common section".toList
    turrets := ⟨turretPane result w.turrets.upper .upper, turretPane result w.turrets.lower .lower⟩
    console := consoleText result.log
    editor :=
      w.editor.mark ((Log.errors result.log).map (·.line)) ((Log.warnings result.log).map (·.line))
    panel := panelText w.bench.machine.config.name result.statistics
    status :=
      if (Log.errors result.log).isEmpty then "Analysis complete".toList
      else "Analysis complete with errors".toList }

/-- Analyzes the text of the editor and shows the result. -/
def process (w : Window) : Window :=
  let bench := (w.bench.process (Value.ofText w.editor.text)).1
  match bench.result with
  | some result => { w with bench }.showResult result
  | none => { w with bench }

/-- Replaces the text of the editor, which sets the timer. -/
def edit (w : Window) (text : Text) : Window :=
  { w with editor := w.editor.setText text, pending := some analysisDelay }

/-- A new window, which shows the demonstration program. -/
def new (folder : Folder) : Window :=
  let blank : Window :=
    { bench := { machine := Machine.ofPreset Config.defaultPreset }
      machineName := Config.defaultPreset
      common := Pane.new "COMMON SECTION".toList
      turrets :=
        ⟨Pane.new "UPPER TURRET (G109 L1)".toList, Pane.new "LOWER TURRET (G109 L2)".toList⟩
      status := "Ready".toList
      panel := "Statistics:\nNo program analyzed".toList
      folder }
  (blank.edit sampleProgram).process

def timeout (w : Window) : Window :=
  match w.pending with
  | some _ => { w with pending := none }.process
  | none => w

def openPath (w : Window) (path : Path) : Window × List MessageBox :=
  match w.folder.read path with
  | .ok bytes => ((w.edit (Text.unifyNewlines (Utf8.decodeLenient bytes))).process, [])
  | .error e =>
      (w, [⟨"Open Program".toList,
        "Could not open ".toList ++ path.text ++ ":\n".toList ++ e.message path⟩])

def savePath (w : Window) (path : Path) : Window × List MessageBox :=
  match w.folder.write path (Utf8.encode w.editor.text) with
  | .ok folder => ({ w with folder }, [])
  | .error e =>
      (w, [⟨"Save Program".toList,
        "Could not save ".toList ++ path.text ++ ":\n".toList ++ e.message path⟩])

/-- The load button; an empty path means that no file was chosen. -/
def load (w : Window) (path : Path) : Window × List MessageBox :=
  if path.text.isEmpty then (w, []) else w.openPath path

/-- The save button; an empty path means that no file was chosen. -/
def save (w : Window) (path : Path) : Window × List MessageBox :=
  if path.text.isEmpty then (w, []) else w.savePath path

/-- Selects a machine of the list other than the present one. -/
def selectMachine (w : Window) (name : Text) : Window :=
  if machineNames.contains name && name ≠ w.machineName then
    { w with machineName := name, bench := w.bench.setMachine name }.process
  else w

def pane
    (w : Window) :
    PaneName → Pane
  | .common => w.common
  | .turret t => w.turrets.get t

/-- Activates an item of a pane, which moves the cursor to its line. -/
def activate (w : Window) (name : PaneName) (index : Int) : Window :=
  match (w.pane name).activated? index with
  | some line => { w with editor := w.editor.gotoLine line }
  | none => w

end Window
end Viewer
end DualTurret
