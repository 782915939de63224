import DualTurret.Block.Position

/-!
# Tokens of a block

A block falls into address words, comments in parentheses, end-of-block signs and
single characters of no meaning; blanks between them are skipped.  A comment runs
to its closing parenthesis, or to the end of the text if there is none.
-/

namespace DualTurret

/-- A piece of a block.  A word keeps its letter and its number as written. -/
inductive Lexeme where
  | word (letter : Char) (number : Text)
  | comment (text : Text)
  | endOfBlock
  | unknown (c : Char)
  deriving DecidableEq

namespace Lexeme

def text : Lexeme → Text
  | word letter number => letter :: number
  | comment t => t
  | endOfBlock => [';']
  | unknown c => [c]

/-- The address letter of a word, in upper case. -/
def address? : Lexeme → Option Char
  | word letter _ => some letter.toUpper
  | _ => none

def number : Lexeme → Text
  | word _ t => t
  | _ => []

/-- A number with an optional sign at the front of a text. -/
def signedNumber? : Text → Option Text
  | c :: t =>
      if c == '+' || c == '-' then (Block.unsignedNumber? t).map fun found => c :: found.1
      else (Block.unsignedNumber? (c :: t)).map (·.1)
  | [] => none

/-- A text up to and including its first closing parenthesis. -/
def throughParenthesis : Text → Text
  | [] => []
  | c :: t => if c == ')' then [c] else c :: throughParenthesis t

/-- The lexeme that begins with a character that is not blank. -/
def ofHead (c : Char) (t : Text) : Lexeme :=
  if c == '(' then comment (c :: throughParenthesis t)
  else if c == ';' then endOfBlock
  else if Text.isLetter c then
    match signedNumber? t with
    | some number => word c number
    | none => unknown c
  else unknown c

end Lexeme

/-- A lexeme and where it begins. -/
structure Token where
  lexeme : Lexeme
  start : Nat
  deriving DecidableEq

namespace Token

/-- The position just past the token. -/
def finish (token : Token) : Nat :=
  token.start + token.lexeme.text.length

/-- The tokens of a text that begins at a position, after the next `skip` characters. -/
def scan
    (skip : Nat)
    (start : Nat) :
    Text → List Token
  | [] => []
  | c :: t =>
      match skip with
      | k + 1 => scan k (start + 1) t
      | 0 =>
          if Text.isBlank c then scan 0 (start + 1) t
          else
            ⟨Lexeme.ofHead c t, start⟩ ::
              scan ((Lexeme.ofHead c t).text.length - 1) (start + 1) t

end Token

/-- The tokens of a block, from left to right. -/
def Block.tokens (line : Text) : List Token :=
  Token.scan 0 0 line

/-- How a word is displayed. -/
inductive Category where
  | gcode
  | mcode
  | axis
  | arc
  | feed
  | speed
  | tool
  | sequence
  | parameter
  | comment
  | plain
  deriving DecidableEq

namespace Category

def ofAddress (address : Char) : Category :=
  match address with
  | 'G' => gcode
  | 'M' => mcode
  | 'X' | 'Y' | 'Z' | 'U' | 'V' | 'W' | 'A' | 'B' | 'C' => axis
  | 'I' | 'J' | 'K' => arc
  | 'F' => feed
  | 'S' => speed
  | 'T' => tool
  | 'N' | 'O' => sequence
  | _ => parameter

def ofLexeme : Lexeme → Category
  | .word letter _ => ofAddress letter.toUpper
  | .comment _ => comment
  | .endOfBlock => plain
  | .unknown _ => plain

def name : Category → Text
  | gcode => "gcode".toList
  | mcode => "mcode".toList
  | axis => "axis".toList
  | arc => "arc".toList
  | feed => "feed".toList
  | speed => "speed".toList
  | tool => "tool".toList
  | sequence => "sequence".toList
  | parameter => "parameter".toList
  | comment => "comment".toList
  | plain => "plain".toList

end Category
end DualTurret
