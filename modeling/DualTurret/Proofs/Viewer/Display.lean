import DualTurret.Proofs.LineViews
import DualTurret.Proofs.Scan.Wording
import DualTurret.Viewer.Window

/-!
# What a window displays

A window displays a result in its parts: the marks of the editor, the three panes and the
console.  Each part is said here on its own, of the diagnostics and streams of the result.  The
diagnostics have numbers of lines that the text has, so no mark is lost, and they are single
lines, so the console has one line for each of them that it lists.

Main facts:
* `Editor.held_mark` and `Editor.Held.gotoLine`: marked lines of the text are all shaded;
* `Window.consoleLists_consoleText`: the lines of the console;
* `Window.shows_showResult`: a window shows the result that it is given.
-/

namespace DualTurret
namespace Viewer

/-! ## The marks of the editor -/

namespace Editor

variable {e : Editor} {errors warnings : List Int} {line : Int}

theorem hasLine_iff : e.hasLine line = true ↔ 1 ≤ line ∧ line ≤ (Text.lines e.text).length := by
  simp [hasLine]

/-- Every text has a first line. -/
theorem hasLine_one (e : Editor) : e.hasLine 1 = true := by
  have hlines := List.length_pos_iff.mpr (List.splitOn_ne_nil '\n' e.text)
  rw [hasLine_iff, Text.lines]
  omega

/-- Going to a line changes nothing, or puts the cursor on a line of the text. -/
theorem gotoLine_cases
    (e : Editor)
    (line : Int) :
    e.gotoLine line = e ∨
      e.hasLine line = true ∧ e.gotoLine line = { e with cursorLine := line }.reshade := by
  unfold gotoLine
  split_ifs with hmoves
  · rw [Bool.and_eq_true] at hmoves
    exact Or.inr ⟨hmoves.1, rfl⟩
  · exact Or.inl rfl

theorem gotoLine_zero (e : Editor) : e.gotoLine 0 = e := by
  simp [gotoLine, hasLine]

@[simp] theorem text_gotoLine (e : Editor) (line : Int) : (e.gotoLine line).text = e.text := by
  rcases e.gotoLine_cases line with h | ⟨_, h⟩
  · rw [h]
  · rw [h]
    rfl

@[simp] theorem errorLines_gotoLine
    (e : Editor)
    (line : Int) :
    (e.gotoLine line).errorLines = e.errorLines := by
  rcases e.gotoLine_cases line with h | ⟨_, h⟩
  · rw [h]
  · rw [h]
    rfl

@[simp] theorem warningLines_gotoLine
    (e : Editor)
    (line : Int) :
    (e.gotoLine line).warningLines = e.warningLines := by
  rcases e.gotoLine_cases line with h | ⟨_, h⟩
  · rw [h]
  · rw [h]
    rfl

theorem hasLine_gotoLine
    (h : e.hasLine e.cursorLine = true)
    (line : Int) :
    (e.gotoLine line).hasLine (e.gotoLine line).cursorLine = true := by
  rcases e.gotoLine_cases line with hstays | ⟨hline, hmoves⟩
  · rwa [hstays]
  · rw [hmoves]
    exact hline

theorem mem_errorLines_mark : line ∈ (e.mark errors warnings).errorLines ↔ line ∈ errors :=
  mem_sortedLines

/-- A line with an error is no warning line. -/
theorem mem_warningLines_mark :
    line ∈ (e.mark errors warnings).warningLines ↔ line ∈ warnings ∧ line ∉ errors := by
  simp [mark, reshade, mem_sortedLines]

theorem errorLines_mark_increasing : (e.mark errors warnings).errorLines.Pairwise (· < ·) :=
  sortedLines_increasing errors

theorem warningLines_mark_increasing : (e.mark errors warnings).warningLines.Pairwise (· < ·) :=
  (sortedLines_increasing warnings).filter _

/-- The text has the cursor line and all marked lines. -/
def Held (e : Editor) : Prop :=
  ∀ line ∈ e.cursorLine :: (e.errorLines ++ e.warningLines),
    1 ≤ line ∧ line ≤ (Text.lines e.text).length

/-- The shaded lines are the cursor line and all marked lines. -/
def ShadesMarks (e : Editor) : Prop :=
  e.shaded = (e.cursorLine, cursorColour) ::
    (e.errorLines.map (·, errorColour) ++ e.warningLines.map (·, warningColour))

/-- Lines that the text has are all shaded. -/
theorem Held.shadesMarks_reshade (h : e.Held) : e.reshade.ShadesMarks := by
  have hmarks : ∀ line ∈ e.errorLines ++ e.warningLines, e.hasLine line = true :=
    fun line hline => hasLine_iff.mpr (h line (List.mem_cons_of_mem _ hline))
  have herrors : e.errorLines.filter e.hasLine = e.errorLines :=
    List.filter_eq_self.mpr fun line hline => hmarks line (List.mem_append_left _ hline)
  have hwarnings : e.warningLines.filter e.hasLine = e.warningLines :=
    List.filter_eq_self.mpr fun line hline => hmarks line (List.mem_append_right _ hline)
  simp only [ShadesMarks, reshade, herrors, hwarnings]

/-- Marking lines that the text has shades them all. -/
theorem held_mark
    (hcursor : e.hasLine e.cursorLine = true)
    (hmarks : ∀ line ∈ errors ++ warnings, e.hasLine line = true) :
    (e.mark errors warnings).Held ∧ (e.mark errors warnings).ShadesMarks := by
  have hheld : (e.mark errors warnings).Held := by
    intro line hline
    refine hasLine_iff.mp ?_
    rcases List.mem_cons.mp hline with rfl | hline
    · exact hcursor
    · rcases List.mem_append.mp hline with hline | hline
      · exact hmarks line (List.mem_append_left _ (mem_errorLines_mark.mp hline))
      · exact hmarks line (List.mem_append_right _ (mem_warningLines_mark.mp hline).1)
  exact ⟨hheld, Held.shadesMarks_reshade hheld⟩

/-- Moving the cursor keeps the marks, and all of them stay shaded. -/
theorem Held.gotoLine
    (h : e.Held)
    (hshades : e.ShadesMarks)
    (line : Int) :
    (e.gotoLine line).Held ∧ (e.gotoLine line).ShadesMarks := by
  rcases e.gotoLine_cases line with hstays | ⟨hline, hmoves⟩
  · rw [hstays]
    exact ⟨h, hshades⟩
  · have hheld : ({ e with cursorLine := line } : Editor).Held := by
      intro other hother
      rcases List.mem_cons.mp hother with rfl | hother
      · exact hasLine_iff.mp hline
      · exact h other (List.mem_cons_of_mem _ hother)
    rw [hmoves]
    exact ⟨hheld, hheld.shadesMarks_reshade⟩

end Editor

/-! ## Panes -/

/-- The digits of a line number of a text. -/
def lineDigits (line : Int) : Text :=
  Nat.toDigits 10 line.toNat

theorem natText_natAbs {line : Int} (h : 1 ≤ line) : natText line.natAbs = lineDigits line := by
  have hnumber : line.natAbs = line.toNat := by omega
  rw [natText, lineDigits, hnumber]

theorem intText_eq_lineDigits {line : Int} (h : 1 ≤ line) : intText line = lineDigits line := by
  rw [intText, if_neg (by omega), natText_natAbs h]

/-- The item shows a line: an N, its number with zeros up to four places, two blanks and its text.
Its background is that of the tag, and a comment is grey. -/
structure PaneItem.ShowsLine (item : PaneItem) (entry : ClassifiedLine) : Prop where
  text : item.text =
    "N".toList ++ List.replicate (4 - (lineDigits entry.line).length) '0' ++
      lineDigits entry.line ++ "  ".toList ++ entry.text
  line : item.line = some entry.line
  background : item.background =
    match entry.tag with
    | .common => some "#1e2a4a".toList
    | .turretSelect => some "#16325c".toList
    | .balance => some "#4a3510".toList
    | .normal => none
  foreground : item.foreground = if entry.comment then some "#6c757d".toList else none
  enabled : item.disabled = false

/-- The pane lists the lines of a stream in their order, or one disabled item if there are none. -/
structure Pane.Lists (pane : Pane) (stream : List ClassifiedLine) (empty : Text) : Prop where
  numbers : ∀ entry ∈ stream, 1 ≤ entry.line
  lines : stream ≠ [] → List.Forall₂ PaneItem.ShowsLine pane.items stream
  placeholder : stream = [] → ∃ item,
    pane.items = [item] ∧ item.text = empty ∧ item.line = none ∧ item.disabled = true

/-- The item of a line shows it. -/
theorem PaneItem.showsLine_ofLine
    {entry : ClassifiedLine}
    (h : 1 ≤ entry.line) :
    (PaneItem.ofLine entry).ShowsLine entry where
  text := by
    have hnumber : lineNumberText entry.line = padZeros 4 (lineDigits entry.line) := by
      rw [lineNumberText, if_neg (by omega), natText_natAbs h]
    simp only [PaneItem.ofLine, lineText, hnumber, padZeros]
    rfl
  line := rfl
  background := by
    cases htag : entry.tag <;> simp only [PaneItem.ofLine, tagBackground?, htag]
  foreground := rfl
  enabled := rfl

/-- A pane lists the lines that it is given. -/
theorem Pane.lists_setLines
    (pane : Pane)
    {stream : List ClassifiedLine}
    (h : ∀ entry ∈ stream, 1 ≤ entry.line)
    (empty : Text) :
    (pane.setLines stream empty).Lists stream empty where
  numbers := h
  lines hne := by
    have hitems : (pane.setLines stream empty).items = stream.map PaneItem.ofLine := by
      simp [Pane.setLines, hne]
    rw [hitems, List.forall₂_map_left_iff, List.forall₂_same]
    exact fun entry hentry => PaneItem.showsLine_ofLine (h entry hentry)
  placeholder hnil := by
    subst hnil
    exact ⟨PaneItem.placeholder empty, rfl, rfl, rfl, rfl⟩

namespace Window

theorem lists_turretPane
    (r : Result)
    (t : Turret)
    (h : ∀ entry ∈ r.streams.get t, 1 ≤ entry.line)
    (pane : Pane) :
    (turretPane r pane t).Lists (r.streams.get t) (turretPlaceholder t) := by
  have hlists := pane.lists_setLines h (turretPlaceholder t)
  exact ⟨h, hlists.lines, hlists.placeholder⟩

/-! ## The console -/

/-- The console lists all errors, all warnings and the first five notes, each with its line number
and its message, and then how many notes there are beyond them.  It says that there are no
findings exactly if there are none. -/
structure ConsoleLists (console : Text) (log : Log) : Prop where
  lines : log ≠ [] → Text.lines console =
    (log.filter (·.severity = .error)).map (fun d =>
        "[ERROR] Line ".toList ++ lineDigits d.line ++ ": ".toList ++ d.message) ++
      (log.filter (·.severity = .warning)).map (fun d =>
        "[WARNING] Line ".toList ++ lineDigits d.line ++ ": ".toList ++ d.message) ++
      ((log.filter (·.severity = .info)).take 5).map (fun d =>
        "[INFO] Line ".toList ++ lineDigits d.line ++ ": ".toList ++ d.message) ++
      if 5 < (log.filter (·.severity = .info)).length then
        ["[INFO] ...and ".toList ++
          Nat.toDigits 10 ((log.filter (·.severity = .info)).length - 5) ++ " more".toList]
      else []
  nothing : console = "No findings.".toList ↔ log = []

/-- A line of the console is a single line and begins with a bracket. -/
theorem bracketed_of_mem_consoleLines
    {log : Log}
    (h : ∀ d ∈ log, Text.SingleLine d.text)
    {line : Text}
    (hline : line ∈ consoleLines log) :
    Text.SingleLine line ∧ line.head? = some '[' := by
  have hlisted : ∀ kind : String, Text.SingleLine ('[' :: kind.toList) → ∀ d ∈ log,
      Text.SingleLine (consoleLine kind d) ∧ (consoleLine kind d).head? = some '[' := by
    intro kind hkind d hd
    exact ⟨(hkind.append (by simp)).append (h d hd), rfl⟩
  simp only [consoleLines, List.mem_append, List.mem_map] at hline
  rcases hline with ((⟨d, hd, rfl⟩ | ⟨d, hd, rfl⟩) | ⟨d, hd, rfl⟩) | hline
  · exact hlisted _ (by simp) d (List.mem_filter.mp hd).1
  · exact hlisted _ (by simp) d (List.mem_filter.mp hd).1
  · exact hlisted _ (by simp) d (List.mem_filter.mp (List.mem_of_mem_take hd)).1
  · unfold hiddenNotes at hline
    dsimp only at hline
    split_ifs at hline
    · rw [List.mem_singleton.mp hline]
      exact ⟨(Text.SingleLine.append (by simp) (singleLine_natText _)).append (by simp), rfl⟩
    · cases hline

theorem consoleLines_ne_nil {log : Log} (h : log ≠ []) : consoleLines log ≠ [] := by
  obtain ⟨d, hd⟩ := List.exists_mem_of_ne_nil log h
  have hlisted := Log.mem_bySeverity.mpr hd
  intro hnil
  simp only [consoleLines, List.append_eq_nil_iff, List.map_eq_nil_iff,
    List.take_eq_nil_iff] at hnil
  obtain ⟨⟨⟨herrors, hwarnings⟩, hshown | hnotes⟩, _⟩ := hnil
  · cases hshown
  · rw [Log.bySeverity, herrors, hwarnings, hnotes] at hlisted
    cases hlisted

/-- A listed diagnostic is shown with its line number and its message. -/
theorem map_consoleLine
    (kind : String)
    (log : Log)
    (hnumbers : ∀ d ∈ log, 1 ≤ d.line) :
    log.map (consoleLine kind) = log.map fun d =>
      '[' :: kind.toList ++ "] Line ".toList ++ lineDigits d.line ++ ": ".toList ++ d.message := by
  have hopening : "] Line ".toList = "] ".toList ++ "Line ".toList := rfl
  refine List.map_congr_left fun d hd => ?_
  have htext : d.text = "Line ".toList ++ intText d.line ++ ": ".toList ++ d.message := rfl
  simp only [consoleLine, htext, intText_eq_lineDigits (hnumbers d hd), hopening,
    List.cons_append, List.append_assoc]

/-- The console of a log of single lines. -/
theorem consoleLists_consoleText
    {log : Log}
    (hnumbers : ∀ d ∈ log, 1 ≤ d.line)
    (htexts : ∀ d ∈ log, Text.SingleLine d.text) :
    ConsoleLists (consoleText log) log := by
  have hlines : log ≠ [] → Text.lines (consoleText log) = consoleLines log := by
    intro hne
    rw [consoleText, if_neg (by simpa using hne)]
    exact List.splitOn_intercalate '\n'
      (fun line hline => (bracketed_of_mem_consoleLines htexts hline).1) (consoleLines_ne_nil hne)
  constructor
  · intro hne
    have herrors := map_consoleLine "ERROR" (Log.errors log)
      fun d hd => hnumbers d (List.mem_filter.mp hd).1
    have hwarnings := map_consoleLine "WARNING" (Log.warnings log)
      fun d hd => hnumbers d (List.mem_filter.mp hd).1
    have hnotes := map_consoleLine "INFO" ((Log.notes log).take notesShown)
      fun d hd => hnumbers d (List.mem_filter.mp (List.mem_of_mem_take hd)).1
    rw [hlines hne, consoleLines, herrors, hwarnings, hnotes]
    rfl
  · constructor
    · intro hconsole
      by_contra hne
      have hline : "No findings.".toList ∈ consoleLines log := by
        rw [← hlines hne, hconsole, Text.lines_of_singleLine (by simp)]
        exact List.mem_cons_self
      cases (bracketed_of_mem_consoleLines htexts hline).2
    · rintro rfl
      rfl

/-! ## The whole window -/

/-- The window shows a result in its editor, its panes and its console. -/
structure Shows (w : Window) (r : Result) : Prop where
  errorLines : ∀ line, line ∈ w.editor.errorLines ↔
    ∃ d ∈ r.log, d.severity = .error ∧ d.line = line
  warningLines : ∀ line, line ∈ w.editor.warningLines ↔
    (∃ d ∈ r.log, d.severity = .warning ∧ d.line = line) ∧
      ¬ ∃ d ∈ r.log, d.severity = .error ∧ d.line = line
  increasing : w.editor.errorLines.Pairwise (· < ·) ∧ w.editor.warningLines.Pairwise (· < ·)
  highlighted : w.editor.Held
  shaded : w.editor.ShadesMarks
  common : w.common.Lists r.common "No common section".toList
  upper : w.turrets.upper.Lists r.streams.upper "No upper turret operations".toList
  lower : w.turrets.lower.Lists r.streams.lower "No lower turret operations".toList
  console : ConsoleLists w.console r.log

theorem mem_lines_withSeverity
    {log : Log}
    {severity : Severity}
    {line : Int} :
    line ∈ (Log.withSeverity log severity).map (·.line) ↔
      ∃ d ∈ log, d.severity = severity ∧ d.line = line := by
  simp [Log.withSeverity, and_assoc]

/-- A result can be displayed: its diagnostics are at lines of the text and are single lines, and
the lines of its streams are numbered from 1. -/
structure Displayable (text : Text) (r : Result) : Prop where
  lines : ∀ d ∈ r.log, 1 ≤ d.line ∧ d.line ≤ (Text.lines text).length
  texts : ∀ d ∈ r.log, Text.SingleLine d.text
  entries : ∀ stream, ∀ entry ∈ r.stream stream, 1 ≤ entry.line

/-- Every result of a preset can be displayed. -/
theorem displayable_of_analyze
    {name text : Text}
    {r : Result}
    (h : (Machine.ofPreset name).analyze text = .ok r) :
    Displayable text r := by
  obtain ⟨s, hreach, rfl⟩ := Machine.exists_reaches h
  refine ⟨fun d hd => hreach.log_line_bounds hd,
    fun d hd => hreach.singleLine_text (Machine.inline_ofPreset name) hd, ?_⟩
  intro stream entry hentry
  rw [Trace.toResult_stream] at hentry
  exact (hreach.entry_line_bounds hentry).1

/-- A window shows the result that it is given. -/
theorem shows_showResult
    {w : Window}
    {r : Result}
    (h : Displayable w.editor.text r)
    (hcursor : w.editor.hasLine w.editor.cursorLine = true) :
    (w.showResult r).Shows r := by
  have hlines : ∀ line ∈ (Log.errors r.log).map (·.line) ++ (Log.warnings r.log).map (·.line),
      w.editor.hasLine line = true := by
    intro line hline
    rw [List.mem_append, Log.errors, Log.warnings, mem_lines_withSeverity,
      mem_lines_withSeverity] at hline
    rcases hline with ⟨d, hd, _, rfl⟩ | ⟨d, hd, _, rfl⟩
    · exact Editor.hasLine_iff.mpr (h.lines d hd)
    · exact Editor.hasLine_iff.mpr (h.lines d hd)
  have hmarks := Editor.held_mark hcursor hlines
  constructor
  · intro line
    exact Editor.mem_errorLines_mark.trans mem_lines_withSeverity
  · intro line
    exact Editor.mem_warningLines_mark.trans
      (and_congr mem_lines_withSeverity (not_congr mem_lines_withSeverity))
  · exact ⟨Editor.errorLines_mark_increasing, Editor.warningLines_mark_increasing⟩
  · exact hmarks.1
  · exact hmarks.2
  · exact w.common.lists_setLines (h.entries .common) _
  · exact lists_turretPane r .upper (h.entries (.turret .upper)) w.turrets.upper
  · exact lists_turretPane r .lower (h.entries (.turret .lower)) w.turrets.lower
  · exact consoleLists_consoleText (fun d hd => (h.lines d hd).1) h.texts

end Window
end Viewer
end DualTurret
