import DualTurret.Text.Class

/-!
# Program text

A text is a list of characters, so positions and lengths count code points.
Lines are what stands between line feeds: a text with `n` line feeds has
`n + 1` lines, and joining them with line feeds gives the text back.
-/

namespace DualTurret

/-- Text of a program, a line or a message. -/
abbrev Text := List Char

namespace Text

def lines (t : Text) : List Text :=
  t.splitOn '\n'

/-- The maximal runs of characters that are not blank. -/
def words (t : Text) : List Text :=
  (t.splitOnP isBlank).filter fun w => !w.isEmpty

def trimLeft (t : Text) : Text :=
  t.dropWhile isBlank

def trim (t : Text) : Text :=
  (trimLeft (trimLeft t).reverse).reverse

/-- What follows `word` at the front of a text. -/
def after? : Text → Text → Option Text
  | [], t => some t
  | _ :: _, [] => none
  | w :: word, c :: t => if w == c then after? word t else none

theorem after?_eq_some_iff
    {word t rest : Text} :
    after? word t = some rest ↔ t = word ++ rest := by
  induction word generalizing t with
  | nil => exact Option.some_inj
  | cons w word ih =>
      cases t with
      | nil => simp [after?]
      | cons c t =>
          by_cases hc : w = c
          · simp [after?, hc, ih]
          · simp [after?, hc, Ne.symm hc]

end Text
end DualTurret
