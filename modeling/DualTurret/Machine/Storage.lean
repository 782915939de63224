import DualTurret.Document.Reader
import DualTurret.Document.Writer
import DualTurret.Machine.Config
import DualTurret.Text.Utf8

/-!
# Storing configurations

A configuration is saved as a document with its six fields and loaded from the
bytes of a file.  Loading takes all of a file or nothing of it: where the file
cannot be read, is not a document or does not fit a configuration, the default
preset stands in for it.  How deep values may nest to be saved or loaded is given
from outside; only what nests deeper is neither saved nor loaded.
-/

namespace DualTurret
namespace Config

/-- The text of a configuration file, unless a field is higher than can be saved. -/
def save? (height : Nat) (c : Config) : Option Text :=
  if c.fields.all fun field => field.2.height ≤ height then
    some (Document.write 0 (.object c.fields))
  else none

/-- The configuration in the bytes of a file, read to the depth given. -/
def parse (depth : Nat) (bytes : List UInt8) : Except Document.ReadError Config := do
  let content ← Document.orMalformed (Utf8.decode? bytes)
  let value ← Document.read depth content
  Document.orMalformed (ofValue? value)

/-- The configuration in a file or the default preset, unless the file nests deeper
than it is read. -/
def load? (depth : Nat) (file : Option (List UInt8)) : Option Choice :=
  match file.map (parse depth) with
  | some (.ok config) => some ⟨config, false⟩
  | some (.error .tooDeep) => none
  | _ => some ⟨integrex100, true⟩

end Config
end DualTurret
