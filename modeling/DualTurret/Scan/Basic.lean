import DualTurret.Scan.Rules

/-!
# Scans

A scan keeps what it remembers from line to line, the log, and the lines that it has
placed in the common section and in the streams of both turrets.  Work on a scan may
be stopped by a fault; what was done before the fault stays.
-/

namespace DualTurret

/-- What a scan remembers from line to line. -/
structure Progress where
  routing : Bool := false
  turret : Option Turret := none
  session : Option BalanceSession := none
  states : PerTurret TurretState := ⟨{}, {}⟩
  deriving DecidableEq

/-- A balance cutting session is open and active. -/
def Progress.inBalance (p : Progress) : Bool :=
  match p.session with
  | some session => session.active
  | none => false

/-- Where a line is placed. -/
inductive Stream where
  | common
  | turret (t : Turret)
  deriving DecidableEq

/-- A scan under way. -/
structure Scan where
  progress : Progress := {}
  log : Log := []
  common : List ClassifiedLine := []
  streams : PerTurret (List ClassifiedLine) := ⟨[], []⟩

namespace Scan

def stream
    (s : Scan) :
    Stream → List ClassifiedLine
  | .common => s.common
  | .turret t => s.streams.get t

def report (s : Scan) (line : Int) (findings : List Finding) : Scan :=
  { s with log := Log.add s.log line findings }

def place
    (s : Scan)
    (entry : ClassifiedLine) :
    Stream → Scan
  | .common => { s with common := s.common ++ [entry] }
  | .turret t => { s with streams := s.streams.set t (s.streams.get t ++ [entry]) }

def setRouting (s : Scan) (routing : Bool) : Scan :=
  { s with progress := { s.progress with routing } }

def setTurret (s : Scan) (turret : Option Turret) : Scan :=
  { s with progress := { s.progress with turret } }

def setSession (s : Scan) (session : Option BalanceSession) : Scan :=
  { s with progress := { s.progress with session } }

def setState (s : Scan) (t : Turret) (state : TurretState) : Scan :=
  { s with progress := { s.progress with states := s.progress.states.set t state } }

def recordWait (s : Scan) (t : Turret) (entry : WaitEntry) : Scan :=
  s.setState t ((s.progress.states.get t).recordWait entry)

end Scan

/-- Work on a scan. -/
abbrev Scanning := ExceptT Fault (StateM Scan)

namespace Scanning

/-- The scan after some work on it, and the fault that stopped the work. -/
def runOn (work : Scanning Unit) (s : Scan) : Scan × Option Fault :=
  match work.run.run s with
  | (.ok _, s) => (s, none)
  | (.error fault, s) => (s, some fault)

/-- Takes in a check: what it has found, or the fault that stopped it. -/
def check
    (line : Int) :
    Check → Scanning Unit
  | .ok findings => modify fun s => s.report line findings
  | .error fault => throw fault

/-- Takes in some checks, up to the first that is stopped. -/
def checkAll
    (line : Int) :
    List Check → Scanning Unit
  | [] => pure ()
  | first :: checks => do
      check line first
      checkAll line checks

end Scanning
end DualTurret
