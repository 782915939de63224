import DualTurret.Machine.Config

/-!
# Machines

A machine is a configuration together with the dialect that it names.
-/

namespace DualTurret

/-- Why a configuration has no dialect. -/
inductive DialectError where
  | unknown (name : Value)
  | notAName

/-- What is wrong with the dialect, if there is more to say than its kind. -/
def DialectError.message? : DialectError → Option DocText
  | unknown name =>
      let known := ", ".toList.intercalate Dialect.knownNames
      some (DocText.ofText "Unknown dialect '".toList ++ name.shown ++
        DocText.ofText ("' (known: ".toList ++ known ++ [')']))
  | notAName => none

def Dialect.ofName : Value → Except DialectError Dialect
  | .text t =>
      if t = DocText.ofText Dialect.integrexName then .ok Dialect.integrex
      else .error (.unknown (.text t))
  | .list _ => .error .notAName
  | .object _ => .error .notAName
  | name => .error (.unknown name)

/-- A configured machine and the vocabulary of its control. -/
structure Machine where
  config : Config
  dialect : Dialect

namespace Machine

def ofConfig (config : Config) : Except DialectError Machine :=
  match Dialect.ofName config.dialect with
  | .ok dialect => .ok ⟨config, dialect⟩
  | .error e => .error e

/-- The machine of the preset with a name. -/
def ofPreset (name : Text) : Machine :=
  ⟨(Config.preset name).config, Dialect.integrex⟩

end Machine
end DualTurret
