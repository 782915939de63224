import DualTurret.Number.Rounding

/-!
# Binary floating-point numbers of 64 bits

The finite numbers of one sign are ranked by magnitude: rank 0 is zero, rank 1
the smallest positive number, and each further rank the next larger one.  A rank
is also the low 63 bits of the usual encoding.  Every magnitude is a whole number
of units of `2 ^ -1074`, so comparisons and roundings are exact.
-/

namespace DualTurret

/-- The rank just past the largest finite number. -/
def infinityRank : Nat := 2047 * Nat.pow 2 52

/-- A binary floating-point number of 64 bits; all NaNs are one value. -/
inductive Binary64 where
  | finite (negative : Bool) (rank : Fin infinityRank)
  | infinite (negative : Bool)
  | nan
  deriving DecidableEq

namespace Binary64

/-- Number of units in one: a unit is `2 ^ -1074`. -/
def unitsPerOne : Nat := Nat.pow 2 1074

/-- The magnitude of a rank, in units. -/
def units (rank : Nat) : Nat :=
  if rank / Nat.pow 2 52 = 0 then rank % Nat.pow 2 52
  else (Nat.pow 2 52 + rank % Nat.pow 2 52) * Nat.pow 2 (rank / Nat.pow 2 52 - 1)

/-- Number of low bits that a magnitude of `n` units loses in 53 bits. -/
def lostBits (n : Nat) : Nat :=
  n.log2 + 1 - 53

/-- The rank nearest to `num / den`, a half to the even rank.  It may lie past the
finite ranks. -/
def nearestRank (num den : Nat) : Nat :=
  lostBits (num * unitsPerOne / den) * Nat.pow 2 52 +
    roundDiv (num * unitsPerOne) (den * Nat.pow 2 (lostBits (num * unitsPerOne / den)))

/-- The number of the given rank, or infinity past the finite ranks. -/
def ofRank (negative : Bool) (rank : Nat) : Binary64 :=
  if h : rank < infinityRank then finite negative ⟨rank, h⟩ else infinite negative

def nearest (negative : Bool) (num den : Nat) : Binary64 :=
  ofRank negative (nearestRank num den)

def zero (negative : Bool) : Binary64 :=
  ofRank negative 0

/-- The value of decimal digits, most significant first. -/
def digitsValue (digits : List Nat) : Nat :=
  digits.foldl (fun n d => 10 * n + d) 0

/-- The number nearest to `digits · 10 ^ exponent`.  From `10 ^ 310` on every value
rounds to infinity, and below `10 ^ -330` to zero. -/
def ofDecimal (negative : Bool) (digits : List Nat) (exponent : Int) : Binary64 :=
  let significant := digits.dropWhile (· == 0)
  let top := exponent + significant.length
  if significant.isEmpty then zero negative
  else if 310 < top then infinite negative
  else if top < -330 then zero negative
  else if 0 ≤ exponent then
    nearest negative (digitsValue significant * Nat.pow 10 exponent.toNat) 1
  else nearest negative (digitsValue significant) (Nat.pow 10 (-exponent).toNat)

def isZero : Binary64 → Bool
  | finite _ rank => rank.val == 0
  | _ => false

/-- The usual encoding; NaN is the quiet one without payload. -/
def toBits : Binary64 → Nat
  | finite negative rank => (if negative then Nat.pow 2 63 else 0) + rank.val
  | infinite negative => (if negative then Nat.pow 2 63 else 0) + infinityRank
  | nan => infinityRank + Nat.pow 2 51

/-- The number that the low 64 bits encode. -/
def ofBits (bits : Nat) : Binary64 :=
  let negative := bits / Nat.pow 2 63 % 2 == 1
  let rank := bits % Nat.pow 2 63
  if rank ≤ infinityRank then ofRank negative rank else nan

end Binary64
end DualTurret
