import DualTurret.Block.Wait
import DualTurret.Text.Quoted

/-!
# Turrets and their state

A machine has an upper and a lower turret.  Each has its own spindle, milling and
cross machining modes, and the wait codes it has issued.  A classified line is a
program line in its stream, with the modes of the turret at that point.
-/

namespace DualTurret

/-- The kinds of things that are given by name. -/
inductive NameKind where
  | turret
  | spindle
  | streamTag
  | severity
  deriving DecidableEq

/-- A name that stands for nothing of its kind. -/
structure UnknownName where
  kind : NameKind
  name : Text
  deriving DecidableEq

def UnknownName.message (e : UnknownName) : Text :=
  let kind :=
    match e.kind with
    | .turret => "Turret"
    | .spindle => "Spindle"
    | .streamTag => "StreamTag"
    | .severity => "Severity"
  Text.quoted e.name ++ " is not a valid ".toList ++ kind.toList

inductive Turret where
  | upper
  | lower
  deriving DecidableEq

namespace Turret

def opposite : Turret → Turret
  | upper => lower
  | lower => upper

/-- The name in a program's vocabulary. -/
def name : Turret → Text
  | upper => "upper".toList
  | lower => "lower".toList

/-- The name in a message. -/
def label : Turret → Text
  | upper => "Upper".toList
  | lower => "Lower".toList

def ofName (name : Text) : Except UnknownName Turret :=
  if name = upper.name then .ok upper
  else if name = lower.name then .ok lower
  else .error ⟨.turret, name⟩

end Turret

/-- Something for each turret. -/
structure PerTurret (α : Type) where
  upper : α
  lower : α
  deriving DecidableEq

namespace PerTurret

def get
    {α : Type}
    (pair : PerTurret α) :
    Turret → α
  | .upper => pair.upper
  | .lower => pair.lower

def set {α : Type} (pair : PerTurret α) (t : Turret) (a : α) : PerTurret α :=
  match t with
  | .upper => { pair with upper := a }
  | .lower => { pair with lower := a }

def map {α β : Type} (f : α → β) (pair : PerTurret α) : PerTurret β :=
  ⟨f pair.upper, f pair.lower⟩

@[simp] theorem get_set_self
    {α : Type}
    (pair : PerTurret α)
    (t : Turret)
    (a : α) :
    (pair.set t a).get t = a := by
  cases t <;> rfl

@[simp] theorem get_set_opposite
    {α : Type}
    (pair : PerTurret α)
    (t : Turret)
    (a : α) :
    (pair.set t a).get t.opposite = pair.get t.opposite := by
  cases t <;> rfl

theorem get_set_of_ne
    {α : Type}
    (pair : PerTurret α)
    {t t' : Turret}
    (h : t' ≠ t)
    (a : α) :
    (pair.set t' a).get t = pair.get t := by
  cases t <;> cases t' <;> first | rfl | exact absurd rfl h

end PerTurret

/-- One of the two spindle heads. -/
inductive Spindle where
  | first
  | second
  deriving DecidableEq

namespace Spindle

/-- The name in a program's vocabulary. -/
def name : Spindle → Text
  | first => "HD1".toList
  | second => "HD2".toList

/-- The ordinal in a message. -/
def ordinal : Spindle → Text
  | first => "1st".toList
  | second => "2nd".toList

def ofName (name : Text) : Except UnknownName Spindle :=
  if name = first.name then .ok first
  else if name = second.name then .ok second
  else .error ⟨.spindle, name⟩

end Spindle

/-- Why a line stands in its stream. -/
inductive StreamTag where
  | common
  | turretSelect
  | normal
  | balance
  deriving DecidableEq

namespace StreamTag

def name : StreamTag → Text
  | common => "common".toList
  | turretSelect => "turret-select".toList
  | normal => "normal".toList
  | balance => "balance".toList

def ofName (name : Text) : Except UnknownName StreamTag :=
  if name = common.name then .ok common
  else if name = turretSelect.name then .ok turretSelect
  else if name = normal.name then .ok normal
  else if name = balance.name then .ok balance
  else .error ⟨.streamTag, name⟩

end StreamTag

structure Modes where
  spindle : Option Spindle := none
  milling : Bool := false
  cross : Bool := false
  deriving DecidableEq

/-- A wait code that a turret has issued, and where. -/
structure WaitEntry where
  code : Text
  line : Int
  value : Int
  deriving DecidableEq

/-- The state of a turret: its modes and its wait codes, the latest last. -/
structure TurretState where
  modes : Modes := {}
  waits : List WaitEntry := []
  deriving DecidableEq

namespace TurretState

def lastWait? (state : TurretState) : Option WaitEntry :=
  state.waits.getLast?

def recordWait (state : TurretState) (entry : WaitEntry) : TurretState :=
  { state with waits := state.waits ++ [entry] }

end TurretState

/-- A program line in its stream. -/
structure ClassifiedLine where
  text : Text
  line : Int
  tag : StreamTag
  comment : Bool := false
  modes : Modes := {}
  deriving DecidableEq

/-- A line with the modes of a turret. -/
def TurretState.snapshot
    (state : TurretState)
    (text : Text)
    (line : Int)
    (tag : StreamTag)
    (comment : Bool) :
    ClassifiedLine :=
  { text, line, tag, comment, modes := state.modes }

/-- A balance cutting section: its master turret and the line that began it. -/
structure BalanceSession where
  master : Turret
  startLine : Int
  active : Bool := true
  deriving DecidableEq

end DualTurret
