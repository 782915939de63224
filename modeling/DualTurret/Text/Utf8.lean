import DualTurret.Text.Basic

/-!
# UTF-8

A byte sequence falls into characters and maximal ill-formed pieces.  Strict
reading refuses a sequence with such a piece; lenient reading puts one
replacement character in the place of each.
-/

namespace DualTurret
namespace Utf8

/-- What a first byte announces: its payload and the ranges of the bytes to follow. -/
def lead? (b : Nat) : Option (Nat × List (Nat × Nat)) :=
  let tail := (0x80, 0xBF)
  if b < 0x80 then some (b, [])
  else if 0xC2 ≤ b ∧ b ≤ 0xDF then some (b - 0xC0, [tail])
  else if b = 0xE0 then some (0, [(0xA0, 0xBF), tail])
  else if b = 0xED then some (0xD, [(0x80, 0x9F), tail])
  else if 0xE1 ≤ b ∧ b ≤ 0xEF then some (b - 0xE0, [tail, tail])
  else if b = 0xF0 then some (0, [(0x90, 0xBF), tail, tail])
  else if 0xF1 ≤ b ∧ b ≤ 0xF3 then some (b - 0xF0, [tail, tail, tail])
  else if b = 0xF4 then some (4, [(0x80, 0x8F), tail, tail])
  else none

/-- Adds the bytes that follow to the payload.  Also gives the number of bytes that
fit, which is where an ill-formed piece ends. -/
def follow
    (payload : Nat) :
    List (Nat × Nat) → List UInt8 → Option Nat × Nat
  | [], _ => (some payload, 0)
  | _ :: _, [] => (none, 0)
  | (low, high) :: ranges, b :: bytes =>
      if low ≤ b.toNat ∧ b.toNat ≤ high then
        let (result, taken) := follow (payload * 64 + b.toNat % 64) ranges bytes
        (result, taken + 1)
      else (none, 0)

/-- The character at the head of the bytes, if they begin with one, and the number
of further bytes that it or the ill-formed piece takes. -/
def headPiece (b : UInt8) (bytes : List UInt8) : Option Char × Nat :=
  match lead? b.toNat with
  | none => (none, 0)
  | some (payload, ranges) =>
      let (code, taken) := follow payload ranges bytes
      (code.map Char.ofNat, taken)

/-- The pieces of a byte sequence after the next `skip` bytes; `none` is an
ill-formed piece. -/
def piecesFrom
    (skip : Nat) :
    List UInt8 → List (Option Char)
  | [] => []
  | b :: bytes =>
      match skip with
      | k + 1 => piecesFrom k bytes
      | 0 =>
          let (piece, taken) := headPiece b bytes
          piece :: piecesFrom taken bytes

/-- Characters and ill-formed pieces, in order. -/
def pieces (bytes : List UInt8) : List (Option Char) :=
  piecesFrom 0 bytes

/-- The text of well-formed bytes. -/
def decode? (bytes : List UInt8) : Option Text :=
  (pieces bytes).mapM id

/-- The text of any bytes, with a replacement character for each ill-formed piece. -/
def decodeLenient (bytes : List UInt8) : Text :=
  (pieces bytes).map fun piece => piece.getD '�'

def encode (t : Text) : List UInt8 :=
  t.flatMap String.utf8EncodeChar

end Utf8

/-- One line feed for each carriage return, with or without a line feed after it. -/
def Text.unifyNewlines : Text → Text
  | '\r' :: '\n' :: t => '\n' :: Text.unifyNewlines t
  | '\r' :: t => '\n' :: Text.unifyNewlines t
  | c :: t => c :: Text.unifyNewlines t
  | [] => []

end DualTurret
