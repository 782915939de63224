import DualTurret.Block.Word

/-!
# Wait codes

A turret waits for the other one at an M word in the reserved band or at a P word
in range.  An M word wins over a P word on the same line, wherever they stand.
-/

namespace DualTurret

/-- A closed range of word values. -/
structure ValueRange where
  low : Int
  high : Int
  deriving DecidableEq

def ValueRange.contains (range : ValueRange) (n : Nat) : Bool :=
  range.low ≤ n && n ≤ range.high

/-- The address of a wait code. -/
inductive WaitAddress where
  | m
  | p
  deriving DecidableEq

def WaitAddress.letter : WaitAddress → Char
  | m => 'M'
  | p => 'P'

/-- A wait code: its address, its digits as written, and their value. -/
structure WaitCode where
  address : WaitAddress
  digits : Text
  value : Nat
  deriving DecidableEq

def WaitCode.code (wait : WaitCode) : Text :=
  wait.address.letter :: wait.digits

namespace Block

/-- The wait code of a run of digits, if their value lies in the range. -/
def waitOfDigits?
    (address : WaitAddress)
    (range : ValueRange)
    (digits : Text) :
    Option WaitCode :=
  match wordValue? digits with
  | some value => if range.contains value then some ⟨address, digits, value⟩ else none
  | none => none

/-- Every wait code of a line with the given address. -/
def waitCodes (address : WaitAddress) (range : ValueRange) (line : Text) : List WaitCode :=
  (wholeWords address.letter line).filterMap (waitOfDigits? address range)

/-- The wait code of a line: the first M word in range, else the first P word in range. -/
def waitCode? (mRange pRange : ValueRange) (line : Text) : Option WaitCode :=
  match (waitCodes .m mRange line).head? with
  | some wait => some wait
  | none => (waitCodes .p pRange line).head?

end Block
end DualTurret
