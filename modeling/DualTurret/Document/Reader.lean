import DualTurret.Document.Value

/-!
# Reading documents

The reader takes a value from the front of a text and gives what is left.  Only
blanks, tabs, line feeds and carriage returns may stand between the parts.  A
number with a fraction or an exponent is a floating-point number, any other a
whole number of at most 4300 digits.  `NaN`, `Infinity` and `-Infinity` are
numbers too.  Control characters may not stand in quotes, and of several fields
with one key the last counts.  Lists and objects may stand inside one another up to
a depth that the reader is given; of two faults the one that comes first in the text
is reported.
-/

namespace DualTurret
namespace Document

/-- Characters that may stand between the parts of a document. -/
def isSpacing (c : Char) : Bool :=
  c == ' ' || c == '\t' || c == '\n' || c == '\r'

/-- The text from its first part on. -/
def skipSpacing (t : Text) : Text :=
  t.dropWhile isSpacing

def hexValue? (c : Char) : Option Nat :=
  if '0' ≤ c && c ≤ '9' then some (c.toNat - 48)
  else if 'a' ≤ c && c ≤ 'f' then some (c.toNat - 87)
  else if 'A' ≤ c && c ≤ 'F' then some (c.toNat - 55)
  else none

/-- The code point of four hexadecimal digits. -/
def unit? (a b c d : Char) : Option CodePoint := do
  let a ← hexValue? a
  let b ← hexValue? b
  let c ← hexValue? c
  let d ← hexValue? d
  return CodePoint.ofNat (a * 0x1000 + b * 0x100 + c * 0x10 + d)

/-- The code point of a one-letter escape. -/
def shortEscape? (c : Char) : Option CodePoint :=
  match c with
  | '"' => some (.ofNat 0x22)
  | '\\' => some (.ofNat 0x5C)
  | '/' => some (.ofNat 0x2F)
  | 'b' => some (.ofNat 0x08)
  | 'f' => some (.ofNat 0x0C)
  | 'n' => some (.ofNat 0x0A)
  | 'r' => some (.ofNat 0x0D)
  | 't' => some (.ofNat 0x09)
  | _ => none

/-- The code points up to the closing quote, each half of a surrogate pair by itself. -/
def readUnits : Text → Option (DocText × Text)
  | [] => none
  | '"' :: t => some ([], t)
  | '\\' :: 'u' :: a :: b :: c :: d :: t => do
      let unit ← unit? a b c d
      let (units, rest) ← readUnits t
      return (unit :: units, rest)
  | '\\' :: c :: t => do
      let unit ← shortEscape? c
      let (units, rest) ← readUnits t
      return (unit :: units, rest)
  | c :: t =>
      if c.toNat < 0x20 || c == '\\' then none
      else do
        let (units, rest) ← readUnits t
        return (CodePoint.ofChar c :: units, rest)

/-- Joins a first half of a surrogate pair with a second half right after it. -/
def joinPairs : DocText → DocText
  | high :: low :: t =>
      if high.isHigh && low.isLow then CodePoint.ofPair high low :: joinPairs t
      else high :: joinPairs (low :: t)
  | t => t

/-- The text after an opening quote. -/
def readQuoted (t : Text) : Option (DocText × Text) :=
  (readUnits t).map fun (units, rest) => (joinPairs units, rest)

/-- The digits of numbers in a document. -/
def isPlainDigit (c : Char) : Bool :=
  '0' ≤ c && c ≤ '9'

/-- Values of plain digits. -/
def plainDigits (t : Text) : List Nat :=
  t.map fun c => c.toNat - 48

/-- A run of plain digits, possibly empty, and what follows it. -/
def digitRun (t : Text) : Text × Text :=
  (t.takeWhile isPlainDigit, t.dropWhile isPlainDigit)

/-- A point with digits after it, and what follows them. -/
def fraction? : Text → Option (Text × Text)
  | '.' :: t =>
      let (digits, rest) := digitRun t
      if digits.isEmpty then none else some (digits, rest)
  | _ => none

/-- The exponent of a number, and what follows it. -/
def exponent? : Text → Option (Int × Text)
  | c :: t =>
      if c == 'e' || c == 'E' then
        let (negative, t) :=
          match t with
          | '-' :: t => (true, t)
          | '+' :: t => (false, t)
          | t => (false, t)
        let (digits, rest) := digitRun t
        if digits.isEmpty then none
        else
          let power : Int := Binary64.digitsValue (plainDigits digits)
          some (if negative then -power else power, rest)
      else none
  | [] => none

/-- The number whose whole part has been read. -/
def finishNumber (negative : Bool) (whole : Text) (t : Text) : Option (Number × Text) :=
  let (fraction, t) := (fraction? t).getD ([], t)
  let (power?, t) :=
    match exponent? t with
    | some (power, rest) => (some power, rest)
    | none => (none, t)
  if fraction.isEmpty && power?.isNone then
    if maxWholeDigits < whole.length then none
    else
      let n : Int := Binary64.digitsValue (plainDigits whole)
      some (.whole (if negative then -n else n), t)
  else
    some (.real (Binary64.ofDecimal negative (plainDigits (whole ++ fraction))
      (power?.getD 0 - fraction.length)), t)

/-- A number without its sign: a zero alone, or digits that do not begin with one. -/
def readMagnitude
    (negative : Bool) :
    Text → Option (Number × Text)
  | '0' :: t => finishNumber negative ['0'] t
  | t =>
      let (whole, rest) := digitRun t
      if whole.isEmpty then none else finishNumber negative whole rest

def readNumber : Text → Option (Number × Text)
  | '-' :: t => readMagnitude true t
  | t => readMagnitude false t

/-- The values that are words. -/
def namedValues : List (Text × Value) := [
  ("null".toList, .null),
  ("true".toList, .truth true),
  ("false".toList, .truth false),
  ("NaN".toList, .number (.real .nan)),
  ("Infinity".toList, .number (.real (.infinite false))),
  ("-Infinity".toList, .number (.real (.infinite true)))]

/-- A named value or a number. -/
def readAtom (t : Text) : Option (Value × Text) :=
  match namedValues.findSome? fun (name, v) => (Text.after? name t).map (v, ·) with
  | some found => some found
  | none => (readNumber t).map fun (x, rest) => (.number x, rest)

/-- Why a document can not be read. -/
inductive ReadError where
  | malformed
  | tooDeep
  deriving DecidableEq

/-- What has been found, or that the document is malformed. -/
def orMalformed
    {α : Type} :
    Option α → Except ReadError α
  | some a => .ok a
  | none => .error .malformed

/-- The items up to the closing bracket: at least one, and at most as many as the
fuel. -/
def readItems
    (item : Text → Except ReadError (Value × Text)) :
    Nat → Text → Except ReadError (List Value × Text)
  | 0, _ => .error .malformed
  | fuel + 1, t => do
      let (value, rest) ← item t
      match skipSpacing rest with
      | ']' :: rest => return ([value], rest)
      | ',' :: rest =>
          let (values, rest) ← readItems item fuel (skipSpacing rest)
          return (value :: values, rest)
      | _ => .error .malformed

/-- The key of a field, and what follows its colon. -/
def readKey? : Text → Option (DocText × Text)
  | '"' :: t => do
      let (key, rest) ← readQuoted t
      match skipSpacing rest with
      | ':' :: rest => return (key, skipSpacing rest)
      | _ => none
  | _ => none

/-- The fields up to the closing brace, as they were given: at least one, and at most
as many as the fuel. -/
def readFields
    (item : Text → Except ReadError (Value × Text)) :
    Nat → Text → Except ReadError (List (DocText × Value) × Text)
  | 0, _ => .error .malformed
  | fuel + 1, t => do
      let (key, rest) ← orMalformed (readKey? t)
      let (value, rest) ← item rest
      match skipSpacing rest with
      | '\x7d' :: rest => return ([(key, value)], rest)
      | ',' :: rest =>
          let (fields, rest) ← readFields item fuel (skipSpacing rest)
          return ((key, value) :: fields, rest)
      | _ => .error .malformed

/-- A value at the front of a text.  No list or object has more than `size` parts, and
lists and objects nest to the depth given. -/
def readValue
    (size : Nat) :
    Nat → Text → Except ReadError (Value × Text)
  | _, '"' :: t => do
      let (content, rest) ← orMalformed (readQuoted t)
      return (.text content, rest)
  | 0, '[' :: _ => .error .tooDeep
  | 0, '\x7b' :: _ => .error .tooDeep
  | depth + 1, '[' :: t =>
      match skipSpacing t with
      | ']' :: rest => .ok (.list [], rest)
      | t => do
          let (items, rest) ← readItems (readValue size depth) size t
          return (.list items, rest)
  | depth + 1, '\x7b' :: t =>
      match skipSpacing t with
      | '\x7d' :: rest => .ok (.object [], rest)
      | t => do
          let (fields, rest) ← readFields (readValue size depth) size t
          return (Value.ofFields fields, rest)
  | _, t => orMalformed (readAtom t)

/-- The value of a whole document, in which lists and objects nest to the depth given. -/
def read (depth : Nat) (t : Text) : Except ReadError Value := do
  let (value, rest) ← readValue t.length depth (skipSpacing t)
  if (skipSpacing rest).isEmpty then return value else .error .malformed

end Document
end DualTurret
