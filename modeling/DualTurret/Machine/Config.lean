import DualTurret.Dialect
import DualTurret.Document.Value

/-!
# Machine configurations

A configuration names a machine and its dialect and sets the limits of the block
checks.  It comes from documents that nobody has checked, so every field may hold
any value; a field of the wrong kind shows only where it is used.
-/

namespace DualTurret

/-- A machine's name, dialect and limits. -/
structure Config where
  name : Value
  dialect : Value := Value.ofText Dialect.integrexName
  maxSpindleSpeed : Value := Value.ofInt 5000
  minFeedRate : Value := .number (.real (Binary64.ofDecimal false [1] (-4)))
  maxBlockLength : Value := Value.ofInt 128
  releaseLookahead : Value := Value.ofInt 4

namespace Config

/-- The keys of a configuration document, in the order in which they are written. -/
def keys : List Text := [
  "name".toList,
  "dialect".toList,
  "max_spindle_speed".toList,
  "min_feed_rate".toList,
  "max_block_length".toList,
  "release_lookahead_lines".toList]

/-- The fields of a configuration document. -/
def fields (c : Config) : List (DocText × Value) :=
  (keys.map DocText.ofText).zip
    [c.name, c.dialect, c.maxSpindleSpeed, c.minFeedRate, c.maxBlockLength, c.releaseLookahead]

/-- The configuration of some fields.  There must be a name and no unknown key; what
is not given has its default. -/
def ofFields? (given : List (DocText × Value)) : Option Config :=
  if given.all fun field => (keys.map DocText.ofText).contains field.1 then
    (Value.lookup given "name".toList).map fun name =>
      let base : Config := { name }
      { name
        dialect := (Value.lookup given "dialect".toList).getD base.dialect
        maxSpindleSpeed :=
          (Value.lookup given "max_spindle_speed".toList).getD base.maxSpindleSpeed
        minFeedRate := (Value.lookup given "min_feed_rate".toList).getD base.minFeedRate
        maxBlockLength :=
          (Value.lookup given "max_block_length".toList).getD base.maxBlockLength
        releaseLookahead :=
          (Value.lookup given "release_lookahead_lines".toList).getD base.releaseLookahead }
  else none

/-- The configuration of a document's value. -/
def ofValue? : Value → Option Config
  | .object given => ofFields? given
  | _ => none

/-- The machine that is used when nothing else is known. -/
def integrex100 : Config :=
  { name := Value.ofText "Mazak Integrex 100-IV ST".toList }

/-- The machine with the faster milling spindle. -/
def integrexI200 : Config :=
  { name := Value.ofText "Mazak Integrex i-200 ST".toList, maxSpindleSpeed := Value.ofInt 12000 }

def defaultPreset : Text :=
  "integrex_100_iv_st".toList

def presets : List (Text × Config) := [
  (defaultPreset, integrex100),
  ("integrex_i_200".toList, integrexI200)]

/-- A configuration, and whether it stands in for one that could not be had. -/
structure Choice where
  config : Config
  warned : Bool

/-- The preset of a name, in which upper and lower case of the plain letters are the
same.  The default stands in for an unknown one. -/
def preset (name : Text) : Choice :=
  match presets.find? fun entry => entry.1 == name.map Char.toLower with
  | some (_, config) => ⟨config, false⟩
  | none => ⟨integrex100, true⟩

end Config
end DualTurret
