import DualTurret.Analysis
import Mathlib.Tactic.Common

/-!
# The history of a scan

What reading a line comes to depends on the progress of the scan only, not on its log or its
streams.  The outcome of a line holds the next progress, what was found, the place of the line
and the fault that stopped it.  A trace keeps the progress and the history of the outcomes; the
log and the streams of a scan are views of such a history.

Main facts:
* `Scan.step_eq`: a step of a scan adds the outcome of its line to the lists of the scan;
* `Trace.scan_after`: the lists of a scan are views of its history;
* `Machine.analyze_eq`: the analysis of a text is the view of a trace.
-/

namespace DualTurret

/-! ## The outcome of a line -/

/-- What reading a line comes to. -/
structure Outcome where
  progress : Progress
  findings : List Finding := []
  placed : Option (Stream × ClassifiedLine) := none
  fault : Option Fault := none

/-- The findings up to the first fault, and that fault. -/
def Check.run : List Check → List Finding × Option Fault
  | [] => ([], none)
  | .error fault :: _ => ([], some fault)
  | .ok findings :: checks =>
      let (rest, fault) := Check.run checks
      (findings ++ rest, fault)

namespace Machine

def readCommon (p : Progress) (line : Int) (text : Text) : Outcome :=
  if Block.isProgramNumber text then { progress := p }
  else
    { progress := p
      placed := some (.common, { text, line, tag := .common, comment := Block.isComment text }) }

def readSelection
    (p : Progress)
    (t : Turret)
    (marker : Text)
    (line : Int)
    (text : Text) :
    Outcome :=
  { progress := { p with turret := some t }
    findings := selectFindings text ++ [.turretSelected t marker]
    placed :=
      some (.turret t, (p.states.get t).snapshot text line .turretSelect false) }

/-- Findings at the start of balance cutting, if the line holds its marker. -/
def startFindings
    (m : Machine)
    (states : PerTurret TurretState)
    (t : Turret)
    (text : Text) :
    List Finding :=
  if Block.holdsMarker text m.dialect.balanceStart then
    m.handshakeFindings states t ++ [.balanceStarts t]
  else []

/-- The session after the start marker of a line, if it holds one. -/
def openSession
    (m : Machine)
    (session : Option BalanceSession)
    (t : Turret)
    (line : Int)
    (text : Text) :
    Option BalanceSession :=
  if Block.holdsMarker text m.dialect.balanceStart then some { master := t, startLine := line }
  else session

/-- The session after the end marker of a line, if it holds one. -/
def closeSession
    (m : Machine)
    (session : Option BalanceSession)
    (text : Text) :
    Option BalanceSession :=
  if Block.holdsMarker text m.dialect.balanceEnd then none else session

/-- The session after a line: its start marker opens one, and its end marker closes
whatever is open. -/
def nextSession
    (m : Machine)
    (session : Option BalanceSession)
    (t : Turret)
    (line : Int)
    (text : Text) :
    Option BalanceSession :=
  m.closeSession (m.openSession session t line text) text

/-- Checks at the end of balance cutting, if the line holds its marker. -/
def endChecks (m : Machine) (raw : List Text) (index : Int) (text : Text) : List Check :=
  if Block.holdsMarker text m.dialect.balanceEnd then
    [m.releaseCheck raw index, .ok [.balanceEnds]]
  else []

def routedProgress
    (m : Machine)
    (p : Progress)
    (t : Turret)
    (signals : Signals)
    (line : Int)
    (text : Text) :
    Progress :=
  { p with
    session := m.nextSession p.session t line text
    states := p.states.set t (m.follow (p.states.get t) signals line text).1 }

def routedChecks
    (m : Machine)
    (raw : List Text)
    (p : Progress)
    (t : Turret)
    (signals : Signals)
    (index line : Int)
    (text : Text) :
    List Check :=
  m.endChecks raw index text ++
    m.blockChecks (m.routedProgress p t signals line text).inBalance text

/-- The entry that a line of the selected turret makes. -/
def routedEntry
    (m : Machine)
    (p : Progress)
    (t : Turret)
    (signals : Signals)
    (line : Int)
    (text : Text) :
    ClassifiedLine :=
  ((m.routedProgress p t signals line text).states.get t).snapshot text line
    (if (m.routedProgress p t signals line text).inBalance then .balance else .normal)
    (Block.isComment text)

/-- A line of the selected turret.  A fault at the start of balance cutting leaves the session
as it was, and any other fault comes after the session was set. -/
def readRouted
    (m : Machine)
    (raw : List Text)
    (p : Progress)
    (t : Turret)
    (index line : Int)
    (text : Text) :
    Outcome :=
  match m.dialect.signals text with
  | .error e => { progress := p, fault := some (.unknownName e) }
  | .ok signals =>
      let next := m.routedProgress p t signals line text
      let notes := (m.follow (p.states.get t) signals line text).2
      match Check.ofFindings (m.startFindings next.states t text) with
      | .error fault =>
          { progress := { next with session := p.session }, findings := notes, fault := some fault }
      | .ok opening =>
          let checked := Check.run (m.routedChecks raw p t signals index line text)
          { progress := next
            findings := notes ++ opening ++ checked.1
            placed :=
              if checked.2.isSome then none
              else some (.turret t, m.routedEntry p t signals line text)
            fault := checked.2 }

/-- What reading a line comes to, from some progress on. -/
def readLine
    (m : Machine)
    (raw : List Text)
    (p : Progress)
    (index line : Int)
    (text : Text) :
    Outcome :=
  match m.dialect.selectedTurret? text with
  | some (name, marker) =>
      let p := { p with routing := true }
      match Turret.ofName name with
      | .ok t => readSelection p t marker line text
      | .error e => { progress := p, fault := some (.unknownName e) }
  | none =>
      if p.routing then
        match p.turret with
        | some t => m.readRouted raw p t index line text
        | none => { progress := p }
      else readCommon p line text

end Machine

/-! ## What a step adds to the lists of a scan -/

theorem Log.add_nil (log : Log) (line : Int) : Log.add log line [] = log :=
  List.append_nil log

theorem Log.add_add
    (log : Log)
    (line : Int)
    (findings later : List Finding) :
    Log.add (Log.add log line findings) line later = Log.add log line (findings ++ later) := by
  rw [Log.add, Log.add, Log.add, List.map_append, List.append_assoc]

/-- Checks that are not stopped go on with the later ones. -/
theorem Check.run_append_of_none
    {checks : List Check}
    (h : (Check.run checks).2 = none)
    (later : List Check) :
    Check.run (checks ++ later) =
      ((Check.run checks).1 ++ (Check.run later).1, (Check.run later).2) := by
  induction checks with
  | nil => rfl
  | cons check checks ih =>
      cases check with
      | error fault => cases h
      | ok findings => simp only [List.cons_append, Check.run, ih h, List.append_assoc]

/-- Checks that are stopped do not come to the later ones. -/
theorem Check.run_append_of_some
    {checks : List Check}
    {fault : Fault}
    (h : (Check.run checks).2 = some fault)
    (later : List Check) :
    Check.run (checks ++ later) = Check.run checks := by
  induction checks with
  | nil => cases h
  | cons check checks ih =>
      cases check with
      | error fault => rfl
      | ok findings => simp only [List.cons_append, Check.run, ih h]

theorem Check.ofFindings_eq_ok
    {findings found : List Finding}
    (h : Check.ofFindings findings = .ok found) :
    found = findings := by
  unfold Check.ofFindings at h
  split_ifs at h
  exact (Except.ok.inj h).symm

namespace Scan

def after (s : Scan) (outcome : Outcome) (line : Int) : Scan :=
  let s := ({ s with progress := outcome.progress } : Scan).report line outcome.findings
  match outcome.placed with
  | some (place, entry) => s.place entry place
  | none => s

theorem progress_after
    (s : Scan)
    (outcome : Outcome)
    (line : Int) :
    (s.after outcome line).progress = outcome.progress := by
  unfold after
  rcases outcome.placed with _ | ⟨_ | _, _⟩ <;> rfl

theorem log_after
    (s : Scan)
    (outcome : Outcome)
    (line : Int) :
    (s.after outcome line).log = s.log ++ outcome.findings.map fun f => ⟨line, f⟩ := by
  unfold after
  rcases outcome.placed with _ | ⟨_ | _, _⟩ <;> rfl

/-- An outcome that places nothing leaves the streams as they are. -/
theorem stream_after_of_not_placed
    {outcome : Outcome}
    (h : outcome.placed = none)
    (s : Scan)
    (line : Int)
    (stream : Stream) :
    (s.after outcome line).stream stream = s.stream stream := by
  rw [after, h]
  rcases stream with _ | _ <;> rfl

/-- An outcome that places a line adds it to its stream. -/
theorem stream_after_of_placed
    {outcome : Outcome}
    {place : Stream}
    {entry : ClassifiedLine}
    (h : outcome.placed = some (place, entry))
    (s : Scan)
    (line : Int)
    (stream : Stream) :
    (s.after outcome line).stream stream =
      s.stream stream ++ if stream = place then [entry] else [] := by
  rw [after, h]
  rcases place with _ | _ | _ <;> rcases stream with _ | _ | _ <;>
    simp [Scan.stream, place, report, PerTurret.set, PerTurret.get]

theorem report_report
    (s : Scan)
    (line : Int)
    (findings later : List Finding) :
    (s.report line findings).report line later = s.report line (findings ++ later) := by
  simp only [report, Log.add_add]

theorem report_nil (s : Scan) (line : Int) : s.report line [] = s := by
  simp only [report, Log.add_nil]

theorem after_report
    (s : Scan)
    (line : Int)
    (findings : List Finding)
    (outcome : Outcome) :
    (s.report line findings).after outcome line =
      s.after { outcome with findings := findings ++ outcome.findings } line := by
  simp only [after, report, Log.add_add]

theorem after_setSession
    (s : Scan)
    (session : Option BalanceSession)
    (outcome : Outcome)
    (line : Int) :
    (s.setSession session).after outcome line = s.after outcome line :=
  rfl

theorem after_setState
    (s : Scan)
    (t : Turret)
    (state : TurretState)
    (outcome : Outcome)
    (line : Int) :
    (s.setState t state).after outcome line = s.after outcome line :=
  rfl

end Scan

namespace Scanning

/-- Work goes on with the next piece unless a fault has stopped it. -/
theorem runOn_bind
    (work next : Scanning Unit)
    (s : Scan) :
    runOn (work >>= fun _ => next) s =
      match runOn work s with
      | (s, none) => runOn next s
      | (s, some fault) => (s, some fault) := by
  simp only [runOn, ExceptT.run_bind, StateT.run_bind]
  rcases work.run.run s with ⟨result | result, s'⟩ <;> rfl

theorem runOn_get
    (work : Scan → Scanning Unit)
    (s : Scan) :
    runOn (get >>= work) s = runOn (work s) s :=
  rfl

theorem runOn_modify (f : Scan → Scan) (s : Scan) : runOn (modify f) s = (f s, none) :=
  rfl

theorem runOn_check
    (line : Int)
    (c : Check)
    (s : Scan) :
    runOn (check line c) s =
      (s.report line (Check.run [c]).1, (Check.run [c]).2) := by
  cases c with
  | error fault =>
      rw [Check.run, Scan.report_nil]
      rfl
  | ok findings =>
      simp only [Check.run, List.append_nil]
      rfl

/-- Checks report what they have found up to the first fault, and then stop. -/
theorem runOn_checkAll
    (line : Int)
    (checks : List Check)
    (s : Scan) :
    runOn (checkAll line checks) s =
      (s.report line (Check.run checks).1, (Check.run checks).2) := by
  induction checks generalizing s with
  | nil =>
      rw [Check.run, Scan.report_nil]
      rfl
  | cons c checks ih =>
      rw [checkAll, runOn_bind, runOn_check]
      cases c with
      | error fault => rfl
      | ok findings => simp only [Check.run, List.append_nil, ih, Scan.report_report]

/-- A line before the first selection does to the lists what its outcome says. -/
theorem runOn_readCommon
    (line : Int)
    (text : Text)
    (s : Scan) :
    runOn (readCommon line text) s =
      (s.after (Machine.readCommon s.progress line text) line, none) := by
  unfold readCommon Machine.readCommon
  split_ifs
  · simp only [Scan.after, Scan.report_nil]
    rfl
  · simp only [Scan.after, Scan.report_nil]
    rfl

/-- A selection does to the lists what its outcome says. -/
theorem runOn_readSelection
    (t : Turret)
    (marker : Text)
    (line : Int)
    (text : Text)
    (s : Scan) :
    runOn (readSelection t marker line text) s =
      (s.after (Machine.readSelection s.progress t marker line text) line, none) := by
  have hreport : Log.add s.log line
      (Machine.selectFindings text ++ [.turretSelected t marker]) =
        Log.add (Log.add s.log line (Machine.selectFindings text)) line
          [.turretSelected t marker] :=
    (Log.add_add _ _ _ _).symm
  simp only [Scan.after, Machine.readSelection, Scan.report, hreport]
  rfl

theorem runOn_followLine
    (m : Machine)
    (t : Turret)
    (line : Int)
    {text : Text}
    {signals : Signals}
    (hsignals : m.dialect.signals text = .ok signals)
    (s : Scan) :
    runOn (followLine m t line text) s =
      ((s.setState t (m.follow (s.progress.states.get t) signals line text).1).report line
        (m.follow (s.progress.states.get t) signals line text).2, none) := by
  rw [followLine, hsignals]
  rfl

/-- The start of balance cutting is stopped before it changes anything. -/
theorem runOn_startBalance
    (m : Machine)
    (t : Turret)
    (line : Int)
    (text : Text)
    (s : Scan) :
    runOn (startBalance m t line text) s =
      match Check.ofFindings (m.startFindings s.progress.states t text) with
      | .error fault => (s, some fault)
      | .ok opening =>
          ((s.setSession (m.openSession s.progress.session t line text)).report line opening,
            none) := by
  unfold startBalance Machine.startFindings Machine.openSession
  split_ifs with hstart
  · have hall : ((m.handshakeFindings s.progress.states t ++ [Finding.balanceStarts t]).all
        Finding.isWritable) = (m.handshakeFindings s.progress.states t).all Finding.isWritable := by
      rw [List.all_append]
      exact Bool.and_true _
    rw [runOn_get, runOn_bind, runOn_check, Machine.handshakeCheck, Check.ofFindings,
      Check.ofFindings, hall]
    split_ifs with hwritable
    · simp only [Check.run, List.append_nil, ← Scan.report_report]
      rfl
    · rw [Check.run, Scan.report_nil]
  · rw [Check.ofFindings, List.all_nil, if_pos rfl]
    exact congrArg (·, none) (Scan.report_nil s line).symm

/-- The end of balance cutting closes the session before its checks. -/
theorem runOn_endBalance
    (m : Machine)
    (raw : List Text)
    (index line : Int)
    (text : Text)
    (s : Scan) :
    runOn (endBalance m raw index line text) s =
      ((s.setSession (m.closeSession s.progress.session text)).report line
        (Check.run (m.endChecks raw index text)).1,
        (Check.run (m.endChecks raw index text)).2) := by
  unfold endBalance Machine.endChecks Machine.closeSession
  split_ifs with hend
  · rw [runOn_bind, runOn_modify]
    simp only
    rw [runOn_bind, runOn_check]
    cases m.releaseCheck raw index with
    | error fault => rfl
    | ok findings =>
        simp only [Check.run, List.append_nil, ← Scan.report_report]
        rfl
  · exact congrArg (·, none) (Scan.report_nil s line).symm

/-- The end of balance cutting, the checks and the place of a line of the selected turret. -/
theorem runOn_finish
    (m : Machine)
    (raw : List Text)
    (t : Turret)
    (index line : Int)
    (text : Text)
    (s : Scan)
    {next : Progress}
    (hnext : { s.progress with session := m.closeSession s.progress.session text } = next) :
    runOn (endBalance m raw index line text >>= fun _ => checkBlock m line text >>= fun _ =>
        placeLine t line text) s =
      let checked := Check.run (m.endChecks raw index text ++ m.blockChecks next.inBalance text)
      (s.after
        { progress := next
          findings := checked.1
          placed :=
            if checked.2.isSome then none
            else some (.turret t, (next.states.get t).snapshot text line
              (if next.inBalance then .balance else .normal) (Block.isComment text)) } line,
        checked.2) := by
  have hended : s.setSession (m.closeSession s.progress.session text) =
      { s with progress := next } := by
    rw [← hnext]
    rfl
  rw [runOn_bind, runOn_endBalance, hended]
  cases hend : (Check.run (m.endChecks raw index text)).2 with
  | some fault =>
      simp only [Check.run_append_of_some hend, hend]
      rfl
  | none =>
      simp only [Check.run_append_of_none hend]
      rw [runOn_bind, checkBlock, runOn_get, runOn_checkAll, Scan.report_report]
      have hbalance : (Scan.report { s with progress := next } line
          (Check.run (m.endChecks raw index text)).1).progress.inBalance = next.inBalance := rfl
      rw [hbalance]
      cases hblock : (Check.run (m.blockChecks next.inBalance text)).2 with
      | some fault => rfl
      | none => rfl

/-- A line of the selected turret adds its outcome to the lists of the scan. -/
theorem runOn_readRouted
    (m : Machine)
    (raw : List Text)
    (t : Turret)
    (index line : Int)
    (text : Text)
    (s : Scan) :
    runOn (readRouted m raw t index line text) s =
      (s.after (m.readRouted raw s.progress t index line text) line,
        (m.readRouted raw s.progress t index line text).fault) := by
  rw [readRouted, runOn_bind, Machine.readRouted]
  cases hsignals : m.dialect.signals text with
  | error e =>
      rw [followLine, hsignals]
      exact congrArg (·, some (Fault.unknownName e)) (Scan.report_nil s line).symm
  | ok signals =>
      rw [runOn_followLine m t line hsignals]
      simp only
      rw [runOn_bind, runOn_startBalance]
      have hstates : ((s.setState t (m.follow (s.progress.states.get t) signals line text).1).report
          line (m.follow (s.progress.states.get t) signals line text).2).progress.states =
            (m.routedProgress s.progress t signals line text).states := rfl
      rw [hstates]
      cases hstart : Check.ofFindings
          (m.startFindings (m.routedProgress s.progress t signals line text).states t text) with
      | error fault => rfl
      | ok opening =>
          simp only
          rw [runOn_finish m raw t index line text _
            (show _ = m.routedProgress s.progress t signals line text from rfl)]
          simp only [Scan.after_report, Scan.after_setSession, Scan.after_setState,
            ← List.append_assoc]
          rfl

/-- A line adds its outcome to the lists of the scan. -/
theorem runOn_readLine
    (m : Machine)
    (raw : List Text)
    (index line : Int)
    (text : Text)
    (s : Scan) :
    runOn (readLine m raw index line text) s =
      (s.after (m.readLine raw s.progress index line text) line,
        (m.readLine raw s.progress index line text).fault) := by
  rw [readLine, Machine.readLine]
  cases m.dialect.selectedTurret? text with
  | some entry =>
      obtain ⟨name, marker⟩ := entry
      dsimp only
      rw [runOn_bind, runOn_modify]
      cases Turret.ofName name with
      | ok t => exact runOn_readSelection t marker line text (s.setRouting true)
      | error e =>
          exact congrArg (·, some (Fault.unknownName e))
            (Scan.report_nil (s.setRouting true) line).symm
  | none =>
      dsimp only
      rw [runOn_get]
      split_ifs
      · cases s.progress.turret with
        | some t => exact runOn_readRouted m raw t index line text s
        | none => exact congrArg (·, none) (Scan.report_nil s line).symm
      · rw [runOn_readCommon, Machine.readCommon]
        split_ifs <;> rfl

end Scanning

/-- A step of a scan adds the outcome of its line to the lists of the scan. -/
theorem Scan.step_eq
    (m : Machine)
    (raw : List Text)
    (s : Scan)
    (index line : Int)
    (text : Text) :
    s.step m raw index line text =
      (s.after (m.readLine raw s.progress index line text) line,
        (m.readLine raw s.progress index line text).fault) :=
  Scanning.runOn_readLine m raw index line text s

/-! ## Traces -/

/-- What reading a line has added. -/
structure Reading where
  line : Int
  findings : List Finding := []
  placed : Option (Stream × ClassifiedLine) := none

namespace Reading

def diagnostics (r : Reading) : Log :=
  r.findings.map fun finding => ⟨r.line, finding⟩

/-- The line that was placed in a stream. -/
def lineIn? (r : Reading) (stream : Stream) : Option ClassifiedLine :=
  match r.placed with
  | some (place, entry) => if place = stream then some entry else none
  | none => none

end Reading

def Outcome.reading (outcome : Outcome) (line : Int) : Reading :=
  { line, findings := outcome.findings, placed := outcome.placed }

def Log.ofHistory (history : List Reading) : Log :=
  history.flatMap Reading.diagnostics

/-- The lines that a history has placed in a stream. -/
def Stream.lines (stream : Stream) (history : List Reading) : List ClassifiedLine :=
  history.filterMap fun r => r.lineIn? stream

/-- The progress of a scan and the history of what reading came to, the latest last. -/
structure Trace where
  progress : Progress := {}
  history : List Reading := []

namespace Trace

def log (s : Trace) : Log :=
  Log.ofHistory s.history

def stream (s : Trace) (stream : Stream) : List ClassifiedLine :=
  stream.lines s.history

def after (s : Trace) (outcome : Outcome) (line : Int) : Trace :=
  { progress := outcome.progress, history := s.history ++ [outcome.reading line] }

/-- A trace with a reading in front of its history. -/
def behind (r : Reading) (s : Trace) : Trace :=
  { s with history := r :: s.history }

/-- The scan whose lists are the views of a trace. -/
def scan (s : Trace) : Scan where
  progress := s.progress
  log := s.log
  common := s.stream .common
  streams := ⟨s.stream (.turret .upper), s.stream (.turret .lower)⟩

/-- The result of a trace over the raw lines. -/
def toResult (s : Trace) (raw : List Text) : Result :=
  s.scan.toResult raw

/-- The scan of a trace has the streams of the trace. -/
theorem scan_stream (s : Trace) : s.scan.stream = s.stream := by
  funext stream
  rcases stream with _ | _ | _ <;> rfl

theorem log_after
    (s : Trace)
    (outcome : Outcome)
    (line : Int) :
    (s.after outcome line).log = s.log ++ outcome.findings.map fun f => ⟨line, f⟩ := by
  simp [log, after, Log.ofHistory, Reading.diagnostics, Outcome.reading]

/-- A step of the trace adds its line to the stream. -/
theorem stream_after
    (s : Trace)
    (outcome : Outcome)
    (line : Int)
    (stream : Stream) :
    (s.after outcome line).stream stream =
      s.stream stream ++ ((outcome.reading line).lineIn? stream).toList := by
  cases hentry : (outcome.reading line).lineIn? stream with
  | none => simp [Trace.stream, Stream.lines, after, hentry]
  | some entry => simp [Trace.stream, Stream.lines, after, hentry]

/-- The lists of a scan are the views of its history, before and after each line. -/
theorem scan_after
    (s : Trace)
    (outcome : Outcome)
    (line : Int) :
    (s.after outcome line).scan = s.scan.after outcome line := by
  simp only [scan, log_after, stream_after]
  cases hplaced : outcome.placed with
  | none =>
      simp [Scan.after, Scan.report, Log.add, Reading.lineIn?, Outcome.reading, hplaced, after]
  | some placed =>
      obtain ⟨place, entry⟩ := placed
      rcases place with _ | _ | _ <;>
        simp [Scan.after, Scan.report, Scan.place, Log.add, Reading.lineIn?, Outcome.reading,
          hplaced, after, PerTurret.set, PerTurret.get]

end Trace

namespace Machine

/-- Reads the remaining lines, the first of which has the given index. -/
def readLines
    (m : Machine)
    (raw : List Text)
    (p : Progress)
    (index : Nat) :
    List Text → Except Fault Trace
  | [] => .ok { progress := p }
  | line :: lines =>
      if isSkipped line then m.readLines raw p (index + 1) lines
      else
        let outcome := m.readLine raw p index (index + 1) (Text.trim line)
        match outcome.fault with
        | some fault => .error fault
        | none =>
            match m.readLines raw outcome.progress (index + 1) lines with
            | .error fault => .error fault
            | .ok rest => .ok { rest with history := outcome.reading (index + 1) :: rest.history }

end Machine

/-- The trace that goes on with the readings of a later one. -/
def Trace.followedBy (s rest : Trace) : Trace :=
  { progress := rest.progress, history := s.history ++ rest.history }

/-- The scan, unless a fault has stopped it. -/
def Scan.unlessStopped : Scan × Option Fault → Except Fault Scan
  | (s, none) => .ok s
  | (_, some fault) => .error fault

/-- Reading the remaining lines adds their readings, up to the first fault. -/
theorem Scanning.runOn_readLines
    (m : Machine)
    (raw : List Text)
    (lines : List Text) :
    ∀ (s : Trace) (index : Nat),
      Scan.unlessStopped (runOn (readLines m raw index lines) s.scan) =
        (m.readLines raw s.progress index lines).map fun rest => (s.followedBy rest).scan := by
  induction lines with
  | nil =>
      intro s index
      have hsame : s.followedBy { progress := s.progress } = s := by
        simp [Trace.followedBy]
      simp only [Machine.readLines, Except.map, hsame]
      rfl
  | cons line lines ih =>
      intro s index
      rw [readLines, Machine.readLines, runOn_bind, readNext]
      split_ifs with hskip
      · exact ih s (index + 1)
      · have hprogress : s.scan.progress = s.progress := rfl
        rw [runOn_readLine, hprogress, ← Trace.scan_after]
        generalize m.readLine raw s.progress index (index + 1) (Text.trim line) = outcome
        have hrest := ih (s.after outcome (index + 1)) (index + 1)
        have hnext : (s.after outcome (index + 1)).progress = outcome.progress := rfl
        rw [hnext] at hrest
        dsimp only
        cases outcome.fault with
        | some fault => rfl
        | none =>
            dsimp only
            rw [hrest]
            cases m.readLines raw outcome.progress (index + 1) lines with
            | error fault => rfl
            | ok rest => simp [Except.map, Trace.followedBy, Trace.after]

/-- The scan over some lines from the start is the view of their trace. -/
theorem Scanning.runOn_of_readLines
    {m : Machine}
    {raw lines : List Text}
    {s : Trace}
    (h : m.readLines raw {} 0 lines = .ok s) :
    runOn (readLines m raw 0 lines) {} = (s.scan, none) := by
  have hrun := runOn_readLines m raw lines {} 0
  have hfresh : Trace.scan {} = {} := rfl
  have hprogress : ({} : Trace).progress = {} := rfl
  rw [hfresh, hprogress, h] at hrun
  rcases hscan : runOn (readLines m raw 0 lines) {} with ⟨s', _ | fault⟩
  · rw [hscan] at hrun
    exact congrArg (·, none) (Except.ok.inj hrun)
  · rw [hscan] at hrun
    cases hrun

/-- The analysis of a text is the view of a trace over its lines. -/
theorem Machine.analyze_eq
    (m : Machine)
    (program : Text) :
    m.analyze program =
      (m.readLines (Text.lines program) {} 0 (Text.lines program)).map
        fun s => s.toResult (Text.lines program) := by
  have hrun := Scanning.runOn_readLines m (Text.lines program) (Text.lines program) {} 0
  have hfresh : Trace.scan {} = {} := rfl
  rw [hfresh] at hrun
  have hview : m.analyze program =
      (Scan.unlessStopped (Scanning.runOn (Scanning.readLines m (Text.lines program) 0
        (Text.lines program)) {})).map fun s => s.toResult (Text.lines program) := by
    rw [analyze]
    rcases Scanning.runOn (Scanning.readLines m (Text.lines program) 0 (Text.lines program)) {}
      with ⟨s, _ | fault⟩ <;> rfl
  rw [hview, hrun]
  cases m.readLines (Text.lines program) {} 0 (Text.lines program) <;> rfl

end DualTurret
