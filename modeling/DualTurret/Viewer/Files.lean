import DualTurret.Text.Quoted
import DualTurret.Text.Utf8

/-!
# Files

A folder holds files and further folders, each under the names that lead to it.
A path is followed name by name: a name in its middle must be a folder, a single
point stays where it is and two points go back.  Two points at the folder itself
lead out of it; what lies above it is a folder, and nothing else is known there.
-/

namespace DualTurret
namespace Viewer

/-- What stands at a place. -/
inductive FileEntry where
  | file (bytes : List UInt8)
  | folder
  deriving DecidableEq

/-- Why a path can not be opened. -/
inductive FileError where
  | missing
  | notAFolder
  | isAFolder
  | nameTooLong
  deriving DecidableEq

/-- The system's number of an error. -/
def FileError.code : FileError → Nat
  | missing => 2
  | notAFolder => 20
  | isAFolder => 21
  | nameTooLong => 36

/-- The system's words for an error. -/
def FileError.reason : FileError → Text
  | missing => "No such file or directory".toList
  | notAFolder => "Not a directory".toList
  | isAFolder => "Is a directory".toList
  | nameTooLong => "File name too long".toList

/-- A text that can be looked for among files: it holds no NUL character. -/
structure Path where
  text : Text
  noNul : '\x00' ∉ text
  deriving DecidableEq

namespace Path

/-- The path that a text gives. -/
def ofText? (t : Text) : Option Path :=
  if h : '\x00' ∈ t then none else some ⟨t, h⟩

/-- The names in a path, with an empty one for each slash that has none before it. -/
def names (path : Path) : List Text :=
  path.text.splitOn '/'

/-- A path from the root of all folders. -/
def isAbsolute (path : Path) : Bool :=
  path.text.head? = some '/'

def endsInSlash (path : Path) : Bool :=
  path.text.getLast? = some '/'

/-- Bytes that a path can have. -/
def maxBytes : Nat := 4095

/-- A path with more bytes than a path can have. -/
def isTooLong (path : Path) : Bool :=
  maxBytes < (Utf8.encode path.text).length

end Path

def FileError.message (e : FileError) (path : Path) : Text :=
  "[Errno ".toList ++ Nat.toDigits 10 e.code ++ "] ".toList ++ e.reason ++ ": ".toList ++
    Text.quoted path.text

/-- The names that lead to a place.  Two points at the front lead out of the folder,
and an empty name at the front is the root of all folders. -/
abbrev Place := List Text

namespace Place

def root : Place := [[]]

def up : Text := ['.', '.']

/-- The folder itself and the folders above it. -/
def isAbove (place : Place) : Bool :=
  place = root || place.all (· = up)

def parent (place : Place) : Place :=
  if place = root then root
  else if place.isAbove then place ++ [up]
  else place.dropLast

/-- Bytes that a name can have. -/
def maxNameBytes : Nat := 255

/-- A place whose last name has more bytes than a name can have. -/
def isTooLong (place : Place) : Bool :=
  maxNameBytes < (Utf8.encode (place.getLastD [])).length

end Place

/-- The entries of a folder and of the folders in it. -/
structure Folder where
  entries : List (Place × FileEntry) := []

namespace Folder

/-- What stands at a place. -/
def entry (folder : Folder) (place : Place) : Except FileError FileEntry :=
  if place.isAbove then .ok .folder
  else if place.isTooLong then .error .nameTooLong
  else
    match folder.entries.find? fun known => known.1 = place with
    | some known => .ok known.2
    | none => .error .missing

/-- Follows the remaining names of a path from a folder.  The last one need not be
there. -/
def follow
    (folder : Folder)
    (place : Place) :
    List Text → Except FileError Place
  | [] => .ok place
  | name :: names =>
      if name.isEmpty || name = ['.'] then folder.follow place names
      else if name = Place.up then folder.follow place.parent names
      else if names.isEmpty then .ok (place ++ [name])
      else
        match folder.entry (place ++ [name]) with
        | .ok .folder => folder.follow (place ++ [name]) names
        | .ok (.file _) => .error .notAFolder
        | .error e => .error e

/-- The place that some names of a path lead to. -/
def placeOf (folder : Folder) (path : Path) (names : List Text) : Except FileError Place :=
  if path.isTooLong then .error .nameTooLong
  else if path.text.isEmpty then .error .missing
  else folder.follow (if path.isAbsolute then Place.root else []) names

def read (folder : Folder) (path : Path) : Except FileError (List UInt8) :=
  match folder.placeOf path path.names with
  | .error e => .error e
  | .ok place =>
      match folder.entry place with
      | .ok (.file bytes) => .ok bytes
      | .ok .folder => .error .isAFolder
      | .error e => .error e

/-- Puts an entry at a place, instead of any that is there. -/
def insert (folder : Folder) (place : Place) (entry : FileEntry) : Folder :=
  ⟨(folder.entries.filter fun known => known.1 ≠ place) ++ [(place, entry)]⟩

/-- The place of a file to be written.  For the path of a folder there is none, also
if the folder is not there. -/
def target (folder : Folder) (path : Path) : Except FileError Place :=
  if path.endsInSlash then
    match folder.placeOf path (path.names.reverse.dropWhile (·.isEmpty)).reverse with
    | .ok _ => .error .isAFolder
    | .error e => .error e
  else folder.placeOf path path.names

/-- Writes a file, or replaces the one that is there. -/
def write (folder : Folder) (path : Path) (bytes : List UInt8) : Except FileError Folder :=
  match folder.target path with
  | .error e => .error e
  | .ok place =>
      match folder.entry place with
      | .ok .folder => .error .isAFolder
      | .error .nameTooLong => .error .nameTooLong
      | _ => .ok (folder.insert place (.file bytes))

end Folder
end Viewer
end DualTurret
