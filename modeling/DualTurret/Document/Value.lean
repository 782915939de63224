import DualTurret.Number.Comparison
import DualTurret.Number.Numeral

/-!
# Values of a configuration document

A document holds numbers, texts, lists and objects whose types nobody checks in
advance.  Whole numbers and floating-point numbers stay apart.  Its texts are made
of code points, because an escape can name half of a surrogate pair.  The fields
of an object keep the order in which they were first given.
-/

namespace DualTurret

/-- A Unicode code point, surrogates included. -/
abbrev CodePoint := Fin 0x110000

namespace CodePoint

def ofChar (c : Char) : CodePoint :=
  ⟨c.toNat, by
    have h := c.valid
    simp only [UInt32.isValidChar, Nat.isValidChar] at h
    simp only [Char.toNat]
    omega⟩

/-- The code point of a number below their count. -/
def ofNat (n : Nat) : CodePoint :=
  Fin.ofNat _ n

def isHigh (p : CodePoint) : Bool :=
  0xD800 ≤ p.val && p.val ≤ 0xDBFF

def isLow (p : CodePoint) : Bool :=
  0xDC00 ≤ p.val && p.val ≤ 0xDFFF

def ofPair (high low : CodePoint) : CodePoint :=
  Fin.ofNat _ (0x10000 + (high.val - 0xD800) * 0x400 + (low.val - 0xDC00))

/-- The character, or the replacement character for half of a pair. -/
def toChar (p : CodePoint) : Char :=
  if p.isHigh || p.isLow then '�' else Char.ofNat p.val

end CodePoint

/-- Text of a document. -/
abbrev DocText := List CodePoint

def DocText.ofText (t : Text) : DocText :=
  t.map CodePoint.ofChar

/-- The program text, with replacement characters for halves of pairs. -/
def DocText.toText (t : DocText) : Text :=
  t.map CodePoint.toChar

/-- A value of a document. -/
inductive Value where
  | null
  | truth (b : Bool)
  | number (x : Number)
  | text (t : DocText)
  | list (items : List Value)
  | object (fields : List (DocText × Value))

namespace Value

def ofText (t : Text) : Value :=
  text (DocText.ofText t)

def ofInt (n : Int) : Value :=
  number (.whole n)

/-- The number that a limit stands for; a truth value counts as 0 or 1. -/
def number? : Value → Option Number
  | truth b => some (.whole (if b then 1 else 0))
  | number x => some x
  | _ => none

/-- The whole number that a count stands for; a truth value counts as 0 or 1. -/
def int? : Value → Option Int
  | truth b => some (if b then 1 else 0)
  | number (.whole n) => some n
  | _ => none

/-- How a value shows in a message. -/
def shown : Value → DocText
  | null => DocText.ofText "None".toList
  | truth b => DocText.ofText (if b then "True".toList else "False".toList)
  | number (.whole n) => DocText.ofText (intText n)
  | number (.real x) => DocText.ofText x.text
  | text t => t
  | list _ => []
  | object _ => []

mutual

/-- How deep the parts of a value lie in lists and objects. -/
def height : Value → Nat
  | null => 0
  | truth _ => 0
  | number _ => 0
  | text _ => 0
  | list items => itemsHeight items
  | object fields => fieldsHeight fields

/-- How deep the parts of some items lie, from the list on that holds them. -/
def itemsHeight : List Value → Nat
  | [] => 0
  | v :: vs => max (height v + 1) (itemsHeight vs)

/-- How deep the parts of some fields lie, from the object on that holds them. -/
def fieldsHeight : List (DocText × Value) → Nat
  | [] => 0
  | (_, v) :: fields => max (height v + 1) (fieldsHeight fields)

end

/-- The value given to a key; the last one given if there are several. -/
def setField
    (fields : List (DocText × Value))
    (key : DocText)
    (value : Value) :
    List (DocText × Value) :=
  if fields.any (fun field => field.1 == key) then
    fields.map fun field => if field.1 == key then (key, value) else field
  else fields ++ [(key, value)]

/-- The object of a list of fields as they were given, one after the other. -/
def ofFields (given : List (DocText × Value)) : Value :=
  object (given.foldl (fun fields field => setField fields field.1 field.2) [])

/-- The value of a key among some fields. -/
def lookup (fields : List (DocText × Value)) (key : Text) : Option Value :=
  (fields.find? fun field => field.1 == DocText.ofText key).map (·.2)

end Value
end DualTurret
