import DualTurret.Scan.Basic

/-!
# One step of a scan

Lines before the first turret selection belong to the common section, except program
numbers, which belong nowhere.  From then on every line belongs to the turret selected
last.  A line of a turret is followed, may start and end balance cutting, is checked
and is then placed; where a fault stops this, the line is placed nowhere.  A single
rule may also be tried on a scan without reading a line.
-/

namespace DualTurret

/-- The turret's state after the mode signals and the wait code of a line. -/
def Machine.follow
    (m : Machine)
    (state : TurretState)
    (signals : Signals)
    (line : Int)
    (text : Text) :
    TurretState × List Finding :=
  let (modes, notes) := state.modes.follow signals
  let waits := (m.dialect.waitCode? text).toList.map fun wait =>
    (⟨wait.code, line, wait.value⟩ : WaitEntry)
  ({ modes, waits := state.waits ++ waits }, notes)

namespace Scanning

/-- A line before the first turret selection. -/
def readCommon (line : Int) (text : Text) : Scanning Unit :=
  if Block.isProgramNumber text then pure ()
  else
    modify fun s =>
      s.place { text, line, tag := .common, comment := Block.isComment text } .common

def readSelection (t : Turret) (marker : Text) (line : Int) (text : Text) : Scanning Unit := do
  modify fun s => s.setTurret (some t)
  modify fun s => s.report line (Machine.selectFindings text)
  modify fun s =>
    s.place ((s.progress.states.get t).snapshot text line .turretSelect false) (.turret t)
  modify fun s => s.report line [.turretSelected t marker]

/-- The selected turret follows the mode signals and the wait code of a line. -/
def followLine (m : Machine) (t : Turret) (line : Int) (text : Text) : Scanning Unit :=
  match m.dialect.signals text with
  | .error e => throw (.unknownName e)
  | .ok signals =>
      modify fun s =>
        let (state, notes) := m.follow (s.progress.states.get t) signals line text
        (s.setState t state).report line notes

/-- The start of balance cutting, if the line holds its marker. -/
def startBalance (m : Machine) (t : Turret) (line : Int) (text : Text) : Scanning Unit :=
  if Block.holdsMarker text m.dialect.balanceStart then do
    let s ← get
    check line (m.handshakeCheck s.progress.states t)
    modify fun s => s.setSession (some { master := t, startLine := line })
    modify fun s => s.report line [.balanceStarts t]
  else pure ()

/-- The end of balance cutting, if the line holds its marker. -/
def endBalance
    (m : Machine)
    (raw : List Text)
    (index line : Int)
    (text : Text) :
    Scanning Unit :=
  if Block.holdsMarker text m.dialect.balanceEnd then do
    modify fun s => s.setSession none
    check line (m.releaseCheck raw index)
    modify fun s => s.report line [.balanceEnds]
  else pure ()

def checkBlock (m : Machine) (line : Int) (text : Text) : Scanning Unit := do
  let s ← get
  checkAll line (m.blockChecks s.progress.inBalance text)

def placeLine (t : Turret) (line : Int) (text : Text) : Scanning Unit :=
  modify fun s =>
    let tag : StreamTag := if s.progress.inBalance then .balance else .normal
    s.place ((s.progress.states.get t).snapshot text line tag (Block.isComment text)) (.turret t)

def readRouted
    (m : Machine)
    (raw : List Text)
    (t : Turret)
    (index line : Int)
    (text : Text) :
    Scanning Unit := do
  followLine m t line text
  startBalance m t line text
  endBalance m raw index line text
  checkBlock m line text
  placeLine t line text

/-- Reads a line that is neither blank nor decoration. -/
def readLine
    (m : Machine)
    (raw : List Text)
    (index line : Int)
    (text : Text) :
    Scanning Unit :=
  match m.dialect.selectedTurret? text with
  | some (name, marker) => do
      modify fun s => s.setRouting true
      match Turret.ofName name with
      | .ok t => readSelection t marker line text
      | .error e => throw (.unknownName e)
  | none => do
      let s ← get
      if s.progress.routing then
        match s.progress.turret with
        | some t => readRouted m raw t index line text
        | none => pure ()
      else readCommon line text

end Scanning

namespace Scan

/-- Reads a line that is neither blank nor decoration. -/
def step
    (m : Machine)
    (raw : List Text)
    (s : Scan)
    (index line : Int)
    (text : Text) :
    Scan × Option Fault :=
  (Scanning.readLine m raw index line text).runOn s

/-- The element of a list at a position; positions below zero count from the end. -/
def lineAt? (raw : List Text) (index : Int) : Option Text :=
  if 0 ≤ index then raw[index.toNat]?
  else if 0 ≤ index + raw.length then raw[(index + raw.length).toNat]?
  else none

def readAt (m : Machine) (raw : List Text) (s : Scan) (index : Int) : Scan × Option Fault :=
  match lineAt? raw index with
  | some text => s.step m raw index (index + 1) (Text.trim text)
  | none => (s, some .noSuchLine)

/-- Takes in the result of a single check. -/
def tryCheck (s : Scan) (line : Int) (check : Check) : Scan × Option Fault :=
  (Scanning.check line check).runOn s

/-- Follows one switch of a text alone. -/
def trySwitch
    (m : Machine)
    (s : Scan)
    (switch : ModeSwitch)
    (line : Int)
    (text : Text) :
    Scan × Option Fault :=
  if m.dialect.holdsSwitch text switch then
    match s.progress.turret with
    | none => (s, some .noTurret)
    | some t =>
        match m.dialect.signal text switch with
        | .error e => (s, some (.unknownName e))
        | .ok signals =>
            let state := s.progress.states.get t
            let (modes, notes) := state.modes.follow signals
            ((s.setState t { state with modes }).report line notes, none)
  else (s, none)

/-- Compares the wait codes of both turrets, as at the start of balance cutting. -/
def tryHandshake (m : Machine) (s : Scan) (line : Int) : Scan × Option Fault :=
  match s.progress.turret with
  | none => (s, some .noTurret)
  | some t => s.tryCheck line (m.handshakeCheck s.progress.states t)

end Scan
end DualTurret
