import DualTurret.Proofs.Viewer.Display
import Mathlib.Data.List.Sort

/-!
# What happens to a window

Programs are typed, loaded and saved, machines are selected, the timer runs out, and lines are
visited or marked by hand.  Some of these events end with an analysis of the text, and some
leave text and marks as they are.  A window is settled when, since its last analysis, only such
events have happened.

The step lemmas say what each kind of event does to a window.  By induction over the events, a
settled window shows the analysis of its text on the selected machine, and displays what a window
does in which nothing else was ever analyzed.

Main facts:
* `Window.happen_of_analyzes` and `Window.happen_of_keeps`: the two kinds of events;
* `Window.framed_after`: what no event changes;
* `Window.settled_shows_analysis`: what a settled window shows.
-/

namespace DualTurret
namespace Viewer

/-- What can happen to a window and to the files of its folder. -/
inductive Event where
  | edit (text : Text)
  | load (path : Path)
  | openFile (path : Path)
  | save (path : Path)
  | analyze
  | timeout
  | select (name : Text)
  | activate (pane : PaneName) (index : Int)
  | goto (line : Int)
  | mark (errors warnings : List Int)
  | files (folder : Folder)

/-- The event changes the text or the marks without an analysis. -/
def Event.disturbs : Event → Bool
  | edit _ | mark _ _ => true
  | _ => false

namespace Window

def happen
    (w : Window) :
    Event → Window
  | .edit text => w.edit text
  | .load path => (w.load path).1
  | .openFile path => (w.openPath path).1
  | .save path => (w.save path).1
  | .analyze => w.process
  | .timeout => w.timeout
  | .select name => w.selectMachine name
  | .activate pane index => w.activate pane index
  | .goto line => { w with editor := w.editor.gotoLine line }
  | .mark errors warnings => { w with editor := w.editor.mark errors warnings }
  | .files folder => { w with folder }

def after (folder : Folder) (events : List Event) : Window :=
  events.foldl happen (new folder)

theorem after_concat
    (folder : Folder)
    (events : List Event)
    (event : Event) :
    after folder (events ++ [event]) = (after folder events).happen event := by
  rw [after, List.foldl_append]
  rfl

/-- The event ends with an analysis. -/
def Analyzes
    (w : Window) :
    Event → Prop
  | .load path => path.text ≠ [] ∧ ∃ bytes, w.folder.read path = .ok bytes
  | .openFile path => ∃ bytes, w.folder.read path = .ok bytes
  | .analyze => True
  | .timeout => w.pending ≠ none
  | .select name => name ∈ machineNames ∧ name ≠ w.machineName
  | _ => False

/-- Since the last analysis, nothing has changed the text or the marks. -/
inductive Settled
    (folder : Folder) :
    List Event → Prop
  | new : Settled folder []
  | analyzed {events : List Event} {event : Event}
      (h : (after folder events).Analyzes event) :
      Settled folder (events ++ [event])
  | kept {events : List Event} {event : Event}
      (before : Settled folder events)
      (hdisturbs : event.disturbs = false)
      (hanalyzes : ¬ (after folder events).Analyzes event) :
      Settled folder (events ++ [event])

/-! ## The two kinds of events -/

/-- What an event does to a window before its analysis. -/
inductive Readies
    (w : Window) :
    Window → Prop
  | same : Readies w w
  | text (text : Text) : Readies w (w.edit text)
  | fired : Readies w { w with pending := none }
  | machine (name : Text) :
      Readies w { w with machineName := name, bench := w.bench.setMachine name }

variable {w : Window}

/-- A file that can be read is analyzed. -/
theorem openPath_of_ok
    {path : Path}
    {bytes : List UInt8}
    (h : w.folder.read path = .ok bytes) :
    (w.openPath path).1 = (w.edit (Text.unifyNewlines (Utf8.decodeLenient bytes))).process := by
  simp only [openPath, h]

/-- A file that can not be read changes nothing. -/
theorem openPath_of_not_ok
    {path : Path}
    (h : ¬ ∃ bytes, w.folder.read path = .ok bytes) :
    (w.openPath path).1 = w := by
  unfold openPath
  split
  · rename_i bytes hread
    exact absurd ⟨bytes, hread⟩ h
  · rfl

theorem selectMachine_of_analyzes
    {name : Text}
    (h : w.Analyzes (.select name)) :
    w.selectMachine name =
      { w with machineName := name, bench := w.bench.setMachine name }.process := by
  obtain ⟨hlisted, hother⟩ := h
  rw [selectMachine, if_pos (by simp [hlisted, hother])]

/-- An event with an analysis readies the window and analyzes its text. -/
theorem happen_of_analyzes
    {event : Event}
    (h : w.Analyzes event) :
    ∃ ready, w.Readies ready ∧ w.happen event = ready.process := by
  cases event with
  | load path =>
      obtain ⟨hpath, bytes, hread⟩ := h
      have hload : w.happen (.load path) = (w.openPath path).1 := by
        rw [happen, load, if_neg (by simpa using hpath)]
      exact ⟨_, .text _, hload.trans (openPath_of_ok hread)⟩
  | openFile path =>
      obtain ⟨bytes, hread⟩ := h
      exact ⟨_, .text _, openPath_of_ok hread⟩
  | analyze => exact ⟨w, .same, rfl⟩
  | timeout =>
      refine ⟨_, .fired, ?_⟩
      obtain ⟨delay, hdelay⟩ := Option.ne_none_iff_exists'.mp h
      simp only [happen, timeout, hdelay]
  | select name => exact ⟨_, .machine name, selectMachine_of_analyzes h⟩
  | _ => exact absurd h id

/-- An event that neither analyzes nor disturbs moves at most the cursor. -/
theorem happen_of_keeps
    {event : Event}
    (hdisturbs : event.disturbs = false)
    (hanalyzes : ¬ w.Analyzes event) :
    ∃ folder line, w.happen event = { w with folder, editor := w.editor.gotoLine line } := by
  have hstays : ∀ folder, ({ w with folder } : Window) =
      { w with folder, editor := w.editor.gotoLine 0 } := by
    intro folder
    rw [Editor.gotoLine_zero]
  cases event with
  | load path =>
      by_cases hpath : path.text = []
      · have hcancelled : w.happen (.load path) = w := by
          rw [happen, load, if_pos (by simp [hpath])]
        exact ⟨w.folder, 0, hcancelled.trans (hstays w.folder)⟩
      · have hread := openPath_of_not_ok fun hread => hanalyzes ⟨hpath, hread⟩
        have hfailed : w.happen (.load path) = w := by
          rw [happen, load, if_neg (by simpa using hpath), hread]
        exact ⟨w.folder, 0, hfailed.trans (hstays w.folder)⟩
  | openFile path => exact ⟨w.folder, 0, (openPath_of_not_ok hanalyzes).trans (hstays w.folder)⟩
  | save path =>
      have hsaves : ∃ folder, w.happen (.save path) = { w with folder } := by
        simp only [happen, save, savePath]
        split_ifs
        · exact ⟨w.folder, rfl⟩
        · split
          · exact ⟨_, rfl⟩
          · exact ⟨w.folder, rfl⟩
      obtain ⟨folder, hfolder⟩ := hsaves
      exact ⟨folder, 0, hfolder.trans (hstays folder)⟩
  | analyze => exact absurd trivial hanalyzes
  | timeout =>
      have hpending : w.pending = none := Classical.not_not.mp hanalyzes
      have hidle : w.happen .timeout = w := by
        simp only [happen, timeout, hpending]
      exact ⟨w.folder, 0, hidle.trans (hstays w.folder)⟩
  | select name =>
      have hsame : ¬ (machineNames.contains name && decide (name ≠ w.machineName)) = true := by
        intro hother
        rw [Bool.and_eq_true, List.contains_iff_mem, decide_eq_true_eq] at hother
        exact hanalyzes hother
      have hstill : w.happen (.select name) = w := by
        rw [happen, selectMachine, if_neg hsame]
      exact ⟨w.folder, 0, hstill.trans (hstays w.folder)⟩
  | activate pane index =>
      simp only [happen, activate]
      split
      · rename_i line _
        exact ⟨w.folder, line, rfl⟩
      · exact ⟨w.folder, 0, hstays w.folder⟩
  | goto line => exact ⟨w.folder, line, rfl⟩
  | files folder => exact ⟨folder, 0, hstays folder⟩
  | edit text => cases hdisturbs
  | mark errors warnings => cases hdisturbs

/-! ## What no event changes -/

def commonTitle : Text :=
  "COMMON SECTION".toList

def turretTitle : Turret → Text
  | .upper => "UPPER TURRET (G109 L1)".toList
  | .lower => "LOWER TURRET (G109 L2)".toList

/-- A window with a machine and a text in which nothing has been analyzed yet. -/
def fresh (name text : Text) : Window where
  bench := { machine := Machine.ofPreset name }
  machineName := name
  editor := { text }
  common := Pane.new commonTitle
  turrets := ⟨Pane.new (turretTitle .upper), Pane.new (turretTitle .lower)⟩
  status := "Ready".toList
  panel := "Statistics:\nNo program analyzed".toList

/-- The bench has the selected machine, the panes have their titles, and the cursor is on a line
of the text. -/
structure Framed (w : Window) : Prop where
  machine : w.bench.machine = Machine.ofPreset w.machineName
  common : w.common.title = commonTitle ∧ w.common.header = commonTitle
  turrets : ∀ t, (w.turrets.get t).title = turretTitle t
  cursor : w.editor.hasLine w.editor.cursorLine = true

theorem framed_fresh (name text : Text) : (fresh name text).Framed where
  machine := rfl
  common := ⟨rfl, rfl⟩
  turrets t := by cases t <;> rfl
  cursor := Editor.hasLine_one _

theorem Framed.showResult (h : w.Framed) (r : Result) : (w.showResult r).Framed where
  machine := h.machine
  common := h.common
  turrets t := by
    cases t with
    | upper => exact h.turrets .upper
    | lower => exact h.turrets .lower
  cursor := h.cursor

@[simp] theorem machineName_process (w : Window) : w.process.machineName = w.machineName := by
  unfold process
  dsimp only
  split <;> rfl

@[simp] theorem text_process (w : Window) : w.process.editor.text = w.editor.text := by
  unfold process
  dsimp only
  split <;> rfl

/-- Every text can be analyzed, and the window then shows the result. -/
theorem Framed.exists_process
    (h : w.Framed) :
    ∃ r bench, (Machine.ofPreset w.machineName).analyze w.editor.text = .ok r ∧
      ({ w with bench } : Window).Framed ∧ w.process = { w with bench }.showResult r := by
  obtain ⟨r, hr⟩ := Machine.analyze_ok (m := Machine.ofPreset w.machineName)
    (Config.numeric_preset w.machineName) (Machine.writable_ofPreset w.machineName)
    Dialect.integrex_namesTurrets Dialect.integrex_namesSpindles w.editor.text
  have hvalue : w.bench.machine.analyzeValue (Value.ofText w.editor.text) = .ok r := by
    rw [h.machine, Value.ofText, Machine.analyzeValue, DocText.toText_ofText, hr]
  have hbench := Workbench.process_of_ok hvalue
  refine ⟨r, { w.bench with lastText := Value.ofText w.editor.text, result := some r }, hr,
    ⟨h.machine, h.common, h.turrets, h.cursor⟩, ?_⟩
  simp only [process, hbench]

theorem Framed.process (h : w.Framed) : w.process.Framed := by
  obtain ⟨r, bench, _, hframed, hprocess⟩ := h.exists_process
  rw [hprocess]
  exact hframed.showResult r

theorem Framed.readies
    {ready : Window}
    (h : w.Framed)
    (hready : w.Readies ready) :
    ready.Framed := by
  cases hready with
  | same => exact h
  | text text => exact ⟨h.machine, h.common, h.turrets, Editor.hasLine_one _⟩
  | fired => exact ⟨h.machine, h.common, h.turrets, h.cursor⟩
  | machine name => exact ⟨rfl, h.common, h.turrets, h.cursor⟩

theorem Framed.gotoLine
    (h : w.Framed)
    (folder : Folder)
    (line : Int) :
    ({ w with folder, editor := w.editor.gotoLine line } : Window).Framed :=
  ⟨h.machine, h.common, h.turrets, Editor.hasLine_gotoLine h.cursor line⟩

/-- No event breaks the frame of a window. -/
theorem Framed.happen (h : w.Framed) (event : Event) : (w.happen event).Framed := by
  by_cases hanalyzes : w.Analyzes event
  · obtain ⟨ready, hready, hprocess⟩ := happen_of_analyzes hanalyzes
    rw [hprocess]
    exact (h.readies hready).process
  · cases hdisturbs : event.disturbs with
    | false =>
        obtain ⟨folder, line, hkeeps⟩ := happen_of_keeps hdisturbs hanalyzes
        rw [hkeeps]
        exact h.gotoLine folder line
    | true =>
        cases event with
        | edit text => exact h.readies (.text text)
        | mark errors warnings => exact ⟨h.machine, h.common, h.turrets, h.cursor⟩
        | _ => cases hdisturbs

/-- The window before its first analysis, with the demonstration program. -/
def opening (folder : Folder) : Window :=
  { (fresh Config.defaultPreset []).edit sampleProgram with folder }

theorem new_eq (folder : Folder) : new folder = (opening folder).process :=
  rfl

theorem framed_opening (folder : Folder) : (opening folder).Framed := by
  have hedited := (framed_fresh Config.defaultPreset []).readies (.text sampleProgram)
  exact ⟨hedited.machine, hedited.common, hedited.turrets, hedited.cursor⟩

theorem after_nil (folder : Folder) : after folder [] = (opening folder).process := by
  rw [after, List.foldl_nil, new_eq]

/-- No event breaks the frame of a window. -/
theorem framed_after (folder : Folder) (events : List Event) : (after folder events).Framed := by
  induction events using List.reverseRecOn with
  | nil =>
      rw [after_nil]
      exact (framed_opening folder).process
  | append_singleton events event ih =>
      rw [after_concat]
      exact ih.happen event

/-! ## What a settled window shows -/

/-- What a window displays of an analysis. -/
structure Display where
  errorLines : List Int
  warningLines : List Int
  common : Pane
  turrets : PerTurret Pane
  console : Text
  panel : Text
  status : Text

def display (w : Window) : Display where
  errorLines := w.editor.errorLines
  warningLines := w.editor.warningLines
  common := w.common
  turrets := w.turrets
  console := w.console
  panel := w.panel
  status := w.status

theorem turretPane_congr
    {pane pane' : Pane}
    (h : pane.title = pane'.title)
    (r : Result)
    (t : Turret) :
    turretPane r pane t = turretPane r pane' t := by
  simp only [turretPane, Pane.setBadges, Pane.setLines, h]

/-- Of the window that is given a result, only the frame counts. -/
theorem Framed.display_showResult
    (h : w.Framed)
    (r : Result) :
    (w.showResult r).display = ((fresh w.machineName w.editor.text).showResult r).display := by
  have hcommon : w.common.setLines r.common "No common section".toList =
      (Pane.new commonTitle).setLines r.common "No common section".toList := by
    simp only [Pane.setLines, Pane.new, h.common.1, h.common.2]
  have hupper : turretPane r w.turrets.upper .upper =
      turretPane r (Pane.new (turretTitle .upper)) .upper :=
    turretPane_congr (h.turrets .upper) r .upper
  have hlower : turretPane r w.turrets.lower .lower =
      turretPane r (Pane.new (turretTitle .lower)) .lower :=
    turretPane_congr (h.turrets .lower) r .lower
  simp only [display, Window.showResult, hcommon, hupper, hlower, h.machine]
  rfl

/-- The window shows the analysis of its text on the selected machine, and it displays what a
window does in which nothing else was ever analyzed. -/
structure ShowsAnalysis (w : Window) : Prop where
  shown : ∃ r, (Machine.ofPreset w.machineName).analyze w.editor.text = .ok r ∧ w.Shows r
  only : w.display = (fresh w.machineName w.editor.text).process.display

/-- Right after an analysis a window shows it. -/
theorem Framed.showsAnalysis_process (h : w.Framed) : w.process.ShowsAnalysis := by
  obtain ⟨r, bench, hr, hframed, hprocess⟩ := h.exists_process
  obtain ⟨r', bench', hr', hfresh, hprocess'⟩ :=
    (framed_fresh w.machineName w.editor.text).exists_process
  obtain rfl : r' = r := Except.ok.inj (hr'.symm.trans hr)
  have hdisplay := (hframed.display_showResult r').trans (hfresh.display_showResult r').symm
  rw [← hprocess, ← hprocess'] at hdisplay
  have hshows : ({ w with bench }.showResult r').Shows r' :=
    shows_showResult (displayable_of_analyze hr) h.cursor
  rw [← hprocess] at hshows
  exact ⟨⟨r', by rwa [machineName_process, text_process], hshows⟩,
    by rwa [machineName_process, text_process]⟩

theorem Shows.gotoLine
    {r : Result}
    (h : w.Shows r)
    (folder : Folder)
    (line : Int) :
    ({ w with folder, editor := w.editor.gotoLine line } : Window).Shows r := by
  have hmarks := h.highlighted.gotoLine h.shaded line
  constructor
  · rw [Editor.errorLines_gotoLine]
    exact h.errorLines
  · rw [Editor.warningLines_gotoLine]
    exact h.warningLines
  · rw [Editor.errorLines_gotoLine, Editor.warningLines_gotoLine]
    exact h.increasing
  · exact hmarks.1
  · exact hmarks.2
  · exact h.common
  · exact h.upper
  · exact h.lower
  · exact h.console

/-- Moving the cursor keeps what is shown. -/
theorem ShowsAnalysis.gotoLine
    (h : w.ShowsAnalysis)
    (folder : Folder)
    (line : Int) :
    ({ w with folder, editor := w.editor.gotoLine line } : Window).ShowsAnalysis := by
  obtain ⟨r, hr, hshows⟩ := h.shown
  have htext := Editor.text_gotoLine w.editor line
  refine ⟨⟨r, by rwa [htext], hshows.gotoLine folder line⟩, ?_⟩
  rw [htext, ← h.only, display, display, Editor.errorLines_gotoLine, Editor.warningLines_gotoLine]

/-- Panes and console are those of the result in a window in which nothing has been analyzed. -/
theorem ShowsAnalysis.parts_eq
    {r : Result}
    (h : w.ShowsAnalysis)
    (hr : (Machine.ofPreset w.machineName).analyze w.editor.text = .ok r) :
    w.common = ((fresh w.machineName w.editor.text).showResult r).common ∧
      w.turrets = ((fresh w.machineName w.editor.text).showResult r).turrets ∧
      w.console = consoleText r.log := by
  obtain ⟨r', bench, hr', hframed, hprocess⟩ :=
    (framed_fresh w.machineName w.editor.text).exists_process
  obtain rfl : r' = r := Except.ok.inj (hr'.symm.trans hr)
  have hdisplay : w.display = ((fresh w.machineName w.editor.text).showResult r').display := by
    rw [h.only, hprocess, hframed.display_showResult r']
    rfl
  exact ⟨congrArg Display.common hdisplay, congrArg Display.turrets hdisplay,
    congrArg Display.console hdisplay⟩

/-- A settled window shows the analysis of its text on the selected machine, and nothing of an
earlier analysis is left in what it displays. -/
theorem settled_shows_analysis
    {folder : Folder}
    {events : List Event}
    (h : Settled folder events) :
    (after folder events).ShowsAnalysis := by
  induction h with
  | new =>
      rw [after_nil]
      exact (framed_opening folder).showsAnalysis_process
  | @analyzed events event hanalyzes =>
      obtain ⟨ready, hready, hprocess⟩ := happen_of_analyzes hanalyzes
      rw [after_concat, hprocess]
      exact ((framed_after folder events).readies hready).showsAnalysis_process
  | kept _ hdisturbs hanalyzes ih =>
      obtain ⟨files, line, hkeeps⟩ := happen_of_keeps hdisturbs hanalyzes
      rw [after_concat, hkeeps]
      exact ih.gotoLine files line

/-- The text and the line number of each item of a pane. -/
def listed (pane : Pane) : List (Text × Option Int) :=
  pane.items.map fun item => (item.text, item.line)

/-- A program with errors is replaced, and the new one is analyzed on the faster machine.  Its
third line has an error and a warning, its fourth line has a warning, and of its six notes five
are listed. -/
theorem settled_shows_analysis_of_replaced :
    let first := "G109 L1\nG999 F0".toList
    let second :=
      "(HEAD)\nG109 L1\nG999 S13000\nS13000\nG109 L1\nG109 L1\nG109 L1\nG109 L1\nG109 L1".toList
    let name := "integrex_i_200".toList
    let events : List Event := [.edit first, .analyze, .edit second, .select name, .goto 2]
    let w := after {} events
    Settled {} events ∧ w.editor.text = second ∧ w.machineName = name ∧ w.ShowsAnalysis ∧
      w.editor.errorLines = [3] ∧ w.editor.warningLines = [4] ∧
      listed w.common = [("N0001  (HEAD)".toList, some 1)] ∧
      listed w.turrets.upper =
        [("N0002  G109 L1".toList, some 2), ("N0003  G999 S13000".toList, some 3),
          ("N0004  S13000".toList, some 4), ("N0005  G109 L1".toList, some 5),
          ("N0006  G109 L1".toList, some 6), ("N0007  G109 L1".toList, some 7),
          ("N0008  G109 L1".toList, some 8), ("N0009  G109 L1".toList, some 9)] ∧
      listed w.turrets.lower = [("No lower turret operations".toList, none)] ∧
      w.console = ['\n'].intercalate
        ["[ERROR] Line 3: Invalid or unsupported G-code: G999".toList,
          "[WARNING] Line 3: Spindle speed S13000 RPM is unusually high".toList,
          "[WARNING] Line 4: Spindle speed S13000 RPM is unusually high".toList,
          "[INFO] Line 2: Upper turret selected (G109 L1)".toList,
          "[INFO] Line 5: Upper turret selected (G109 L1)".toList,
          "[INFO] Line 6: Upper turret selected (G109 L1)".toList,
          "[INFO] Line 7: Upper turret selected (G109 L1)".toList,
          "[INFO] Line 8: Upper turret selected (G109 L1)".toList,
          "[INFO] ...and 1 more".toList] := by
  intro first second name events w
  have hbefore : (after {} [.edit first, .analyze, .edit second]).machineName =
      Config.defaultPreset := by
    simp only [after, List.foldl_cons, List.foldl_nil, happen, edit, machineName_process, new_eq]
    rfl
  have hother : (after {} [.edit first, .analyze, .edit second]).Analyzes (.select name) := by
    rw [Analyzes, hbefore]
    decide
  have hsettled : Settled {} events := .kept (.analyzed hother) rfl id
  have hevents :
      events = [.edit first, .analyze, .edit second] ++ [.select name] ++ [.goto 2] := rfl
  have htext : w.editor.text = second := by
    simp only [w]
    rw [hevents, after_concat, after_concat, happen, happen, selectMachine_of_analyzes hother,
      Editor.text_gotoLine, text_process]
    rfl
  have hname : w.machineName = name := by
    simp only [w]
    rw [hevents, after_concat, after_concat, happen, happen, selectMachine_of_analyzes hother,
      machineName_process]
  have hshows : w.ShowsAnalysis := settled_shows_analysis hsettled
  obtain ⟨r, hr, hshown⟩ := hshows.shown
  obtain ⟨hcommon, hturrets, hconsole⟩ := hshows.parts_eq hr
  rw [htext, hname] at hr hcommon hturrets
  have hread : ∀ {α : Type} (f : Result → α) {value : α},
      ((Machine.ofPreset name).analyze second).toOption.map f = some value → f r = value := by
    intro α f value hvalue
    rw [hr] at hvalue
    exact Option.some.inj hvalue
  have herrors : (Log.withSeverity r.log .error).map (·.line) = [3] :=
    hread (fun r => (Log.withSeverity r.log .error).map (·.line)) (by decide +kernel)
  have hwarnings : (Log.withSeverity r.log .warning).map (·.line) = [3, 4] :=
    hread (fun r => (Log.withSeverity r.log .warning).map (·.line)) (by decide +kernel)
  refine ⟨hsettled, htext, hname, hshows, ?_, ?_, ?_, ?_, ?_, ?_⟩
  · refine hshown.increasing.1.eq_of_mem_iff (by decide) fun line => ?_
    rw [hshown.errorLines, ← mem_lines_withSeverity, herrors]
  · refine hshown.increasing.2.eq_of_mem_iff (by decide) fun line => ?_
    rw [hshown.warningLines, ← mem_lines_withSeverity, ← mem_lines_withSeverity, herrors,
      hwarnings]
    simp only [List.mem_cons, List.not_mem_nil, or_false]
    omega
  · rw [hcommon]
    exact hread (fun r => listed ((fresh name second).showResult r).common) (by decide +kernel)
  · rw [hturrets]
    exact hread (fun r => listed ((fresh name second).showResult r).turrets.upper)
      (by decide +kernel)
  · rw [hturrets]
    exact hread (fun r => listed ((fresh name second).showResult r).turrets.lower)
      (by decide +kernel)
  · rw [hconsole]
    exact hread (fun r => consoleText r.log) (by decide +kernel)

end Window
end Viewer
end DualTurret
