import DualTurret.Machine.Basic
import DualTurret.Signals

/-!
# Checks of single blocks and of balance cutting

Each check gives its findings, or the fault that stops it: a limit that is not a
number can not be compared with, and a whole number that is too long can not be
written into a message.  A sequence of checks ends at its first fault and keeps what
was found before it.
-/

namespace DualTurret

/-- Why a scan can not go on. -/
inductive Fault where
  | unknownName (e : UnknownName)
  | notANumber
  | tooLong
  | noTurret
  | noSuchLine
  deriving DecidableEq

/-- The findings of a check, or the fault that stopped it. -/
abbrev Check := Except Fault (List Finding)

/-- The findings, if the wording of each can be written. -/
def Check.ofFindings (findings : List Finding) : Check :=
  if findings.all Finding.isWritable then .ok findings else .error .tooLong

/-- A G code that moves an axis, written with one digit or two. -/
def isMotionCode (code : Text) : Bool :=
  match code with
  | ['G', d] => '0' ≤ d && d ≤ '3'
  | ['G', '0', d] => '0' ≤ d && d ≤ '3'
  | _ => false

/-- The part of a list from position `i` up to position `j`.  Positions below zero
count from the end, and positions outside the list mean its ends. -/
def slice {α : Type} (xs : List α) (i j : Int) : List α :=
  let position (k : Int) : Nat :=
    if k < 0 then (k + xs.length).toNat else min k.toNat xs.length
  (xs.drop (position i)).take (position j - position i)

namespace Machine

/-- A turret selection must not share its block with a motion. -/
def selectFindings (text : Text) : List Finding :=
  if (Block.gCodes text).any isMotionCode then [.selectWithMotion] else []

/-- Both turrets must have issued the same wait code before balance cutting.  Only the
latest wait code of each counts. -/
def handshakeFindings
    (m : Machine)
    (states : PerTurret TurretState)
    (master : Turret) :
    List Finding :=
  match (states.get master).lastWait? with
  | none => [.waitMissing m.dialect.waitM m.dialect.waitP m.dialect.balanceStart]
  | some masterWait =>
      match (states.get master.opposite).lastWait? with
      | none => [.slaveWaitMissing master.opposite]
      | some slaveWait =>
          if slaveWait.code = masterWait.code then []
          else [.waitMismatch masterWait.code slaveWait.code]

/-- The comparison of the wait codes at the start of balance cutting. -/
def handshakeCheck (m : Machine) (states : PerTurret TurretState) (master : Turret) : Check :=
  .ofFindings (m.handshakeFindings states master)

/-- A wait code must follow the end of balance cutting within the lookahead, the line
itself included. -/
def releaseCheck (m : Machine) (raw : List Text) (index : Int) : Check :=
  match m.config.releaseLookahead.int? with
  | none => .error .notANumber
  | some lookahead =>
      if (slice raw index (index + lookahead + 1)).any
          fun line => (m.dialect.waitCode? (Text.trim line)).isSome then .ok []
      else .ok [.releaseMissing m.dialect.balanceEnd]

/-- Every G code must be one that the control supports. -/
def codeCheck (m : Machine) (text : Text) : Check :=
  .ok (((Block.gCodes text).filter fun code => !m.dialect.supports code).map .unsupportedCode)

/-- A feed rate must not be zero, and should not be below the limit. -/
def feedCheck (m : Machine) (text : Text) : Check :=
  match Block.feedRate? text with
  | none => .ok []
  | some rate =>
      if rate.isZero then .ok [.zeroFeed]
      else
        match m.config.minFeedRate.number? with
        | none => .error .notANumber
        | some limit => .ok (if (Number.real rate).lt limit then [.lowFeed rate] else [])

/-- The spindle speed of some digits lies above the limit; one that is too long to
have a value lies above every limit. -/
def exceedsSpeed (m : Machine) (digits : Text) : Except Fault Bool :=
  match Block.wordValue? digits with
  | none => .ok true
  | some speed =>
      match m.config.maxSpindleSpeed.number? with
      | none => .error .notANumber
      | some limit => .ok (limit.lt (.whole speed))

/-- A spindle speed should not be above the limit, and is noted in balance cutting. -/
def speedCheck (m : Machine) (inBalance : Bool) (text : Text) : Check :=
  match Block.speedDigits? text with
  | none => .ok []
  | some digits =>
      match m.exceedsSpeed digits with
      | .error fault => .error fault
      | .ok high =>
          .ok ((if high then [.highSpeed digits] else []) ++
            if inBalance then [.balanceSpeed digits] else [])

/-- A block must not be longer than the limit. -/
def lengthCheck (m : Machine) (text : Text) : Check :=
  match m.config.maxBlockLength.number? with
  | none => .error .notANumber
  | some limit =>
      .ofFindings (if limit.lt (.whole text.length) then
        [.longBlock m.config.maxBlockLength text.length] else [])

/-- The checks of every routed block, in order. -/
def blockChecks (m : Machine) (inBalance : Bool) (text : Text) : List Check :=
  [m.codeCheck text, m.feedCheck text, m.speedCheck inBalance text, m.lengthCheck text]

end Machine
end DualTurret
