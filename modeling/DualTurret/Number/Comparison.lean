import DualTurret.Number.Binary64

/-!
# Comparing whole and floating-point numbers

A whole number of any size and a floating-point number compare by their exact
values; NaN is neither below nor above anything.
-/

namespace DualTurret

/-- A number as a limit or a measured quantity holds it. -/
inductive Number where
  | whole (n : Int)
  | real (x : Binary64)
  deriving DecidableEq

/-- A point of the number line, closed by the two infinities. -/
inductive Place where
  | bottom
  | exact (units : Int)
  | top
  deriving DecidableEq

def Place.lt : Place → Place → Bool
  | .bottom, .bottom => false
  | .bottom, _ => true
  | .exact _, .bottom => false
  | .exact m, .exact n => m < n
  | .exact _, .top => true
  | .top, _ => false

/-- Where a number lies, in units of `2 ^ -1074`; NaN lies nowhere. -/
def Number.place? : Number → Option Place
  | .whole n => some (.exact (n * Binary64.unitsPerOne))
  | .real (.finite negative rank) =>
      some (.exact (if negative then -(Binary64.units rank : Int) else Binary64.units rank))
  | .real (.infinite negative) => some (if negative then .bottom else .top)
  | .real .nan => none

/-- The first number lies strictly below the second. -/
def Number.lt (a b : Number) : Bool :=
  match a.place?, b.place? with
  | some p, some q => p.lt q
  | _, _ => false

end DualTurret
