import DualTurret.Text.Basic
import DualTurret.Number.Binary64

/-!
# Numerals

Whole numbers in decimal, and floating-point numbers in two notations: with a
fixed number of places of which only the needed ones are written, and with the
fewest digits that read back as the same number.
-/

namespace DualTurret

def natText (n : Nat) : Text :=
  Nat.toDigits 10 n

/-- A whole number in decimal, with a minus sign if it is negative. -/
def intText (n : Int) : Text :=
  if n < 0 then '-' :: natText n.natAbs else natText n.natAbs

/-- The most digits of a whole number that is read or written. -/
def maxWholeDigits : Nat := 4300

/-- The whole number has no more digits than can be written. -/
def isWritableWhole (n : Int) : Bool :=
  (natText n.natAbs).length ≤ maxWholeDigits

/-- Zeros in front of the text up to the given width. -/
def padZeros (width : Nat) (t : Text) : Text :=
  List.replicate (width - t.length) '0' ++ t

def signed (negative : Bool) (t : Text) : Text :=
  if negative then '-' :: t else t

namespace Binary64

/-- The magnitude as the nearest multiple of `10 ^ -places`, a half to the even one. -/
def fixedMultiple (places rank : Nat) : Nat :=
  roundDiv (units rank * Nat.pow 10 places) unitsPerOne

def dropTrailingZeros (t : Text) : Text :=
  (t.reverse.dropWhile (· == '0')).reverse

/-- `n · 10 ^ -places`, without zeros at the end of the fraction and without a
point if there is no fraction. -/
def pointText (places n : Nat) : Text :=
  let fraction := dropTrailingZeros (padZeros places (natText (n % Nat.pow 10 places)))
  natText (n / Nat.pow 10 places) ++ (if fraction.isEmpty then [] else '.' :: fraction)

/-- The number rounded to `places` places, as one would type it: no exponent, and
no more places than it needs. -/
def fixedText
    (places : Nat) :
    Binary64 → Text
  | finite negative rank => signed negative (pointText places (fixedMultiple places rank))
  | infinite negative => signed negative "inf".toList
  | nan => "nan".toList

/-- The power of ten just above a positive magnitude: `10 ^ (p - 1) ≤ v < 10 ^ p`. -/
def decimalTop (rank : Nat) : Int :=
  (natText (units rank * Nat.pow 10 400 / unitsPerOne)).length - 400

/-- The magnitude over `10 ^ exponent`, as a fraction. -/
def scaled (rank : Nat) (exponent : Int) : Nat × Nat :=
  if 0 ≤ exponent then (units rank, unitsPerOne * Nat.pow 10 exponent.toNat)
  else (units rank * Nat.pow 10 (-exponent).toNat, unitsPerOne)

/-- The two multiples of `10 ^ exponent` around the magnitude, the nearer one first
and the even one first if both are as near. -/
def neighbours (rank : Nat) (exponent : Int) : List Nat :=
  let (num, den) := scaled rank exponent
  let low := num / den
  if roundDiv num den = low then [low, low + 1] else [low + 1, low]

/-- The rank nearest to `n · 10 ^ exponent`. -/
def rankOfDecimal (n : Nat) (exponent : Int) : Nat :=
  if 0 ≤ exponent then nearestRank (n * Nat.pow 10 exponent.toNat) 1
  else nearestRank n (Nat.pow 10 (-exponent).toNat)

/-- A decimal number `n · 10 ^ exponent` that reads back as the rank, with as few
digits as possible and the nearest of those.  Seventeen digits always suffice; the
exact expansion stands behind them. -/
def shortest (rank : Nat) : Nat × Int :=
  let top := decimalTop rank
  let hit := (List.range 17).findSome? fun i =>
    let exponent := top - (i + 1 : Nat)
    ((neighbours rank exponent).find? fun n => rankOfDecimal n exponent == rank).map (·, exponent)
  hit.getD (units rank * Nat.pow 5 1074, -1074)

/-- Digits around a decimal point that stands after the first `point` of them, at
least one digit on either side. -/
def positional (digits : Text) (point : Int) : Text :=
  if point ≤ 0 then
    "0.".toList ++ List.replicate (-point).toNat '0' ++ digits
  else if digits.length ≤ point.toNat then
    digits ++ List.replicate (point.toNat - digits.length) '0' ++ ".0".toList
  else
    digits.take point.toNat ++ '.' :: digits.drop point.toNat

/-- Digits with a point after the first one, if more follow, and a power of ten of
two digits or more. -/
def scientific (digits : Text) (point : Int) : Text :=
  let power := point - 1
  let mantissa :=
    match digits with
    | d :: e :: rest => d :: '.' :: e :: rest
    | _ => digits
  mantissa ++ 'e' :: (if power < 0 then '-' else '+') :: padZeros 2 (natText power.natAbs)

/-- The decimal number `n · 10 ^ exponent`, positional for powers of ten from `-4` to `15`.  Zeros
at the end of its digits are not written. -/
def decimalText (n : Nat) (exponent : Int) : Text :=
  let all := natText n
  let digits := dropTrailingZeros all
  let point := exponent + all.length
  if -4 < point ∧ point ≤ 16 then positional digits point else scientific digits point

/-- The shortest digits of a positive magnitude. -/
def shortestText (rank : Nat) : Text :=
  let found := shortest rank
  decimalText found.1 found.2

/-- The number with the fewest digits that read back; a whole number keeps `.0`. -/
def text : Binary64 → Text
  | finite negative rank =>
      signed negative (if rank.val = 0 then "0.0".toList else shortestText rank)
  | infinite negative => signed negative "inf".toList
  | nan => "nan".toList

end Binary64
end DualTurret
